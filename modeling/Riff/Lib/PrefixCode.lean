import Mathlib.Data.List.Infix

set_option autoImplicit false

/-- A code in which no word is the beginning of another one, so that a sequence
of words needs no marks between them. -/
structure PrefixCode (α β : Type*) where
  encode : α → List β
  nonempty : ∀ a, encode a ≠ []
  unique : ∀ a b, encode a <+: encode b → a = b

namespace PrefixCode

variable {α β : Type*} (c : PrefixCode α β)

def stream (as : List α) : List β := as.flatMap c.encode

@[simp] theorem stream_nil : c.stream [] = [] := rfl

@[simp] theorem stream_cons (a : α) (as : List α) :
    c.stream (a :: as) = c.encode a ++ c.stream as := rfl

@[simp] theorem stream_append (as bs : List α) :
    c.stream (as ++ bs) = c.stream as ++ c.stream bs := List.flatMap_append

variable {c}

/-- The word that a text begins with is determined by the text. -/
theorem head_unique {a b : α} {rest : List β} {bs : List α}
    (starts : c.encode a ++ rest <+: c.stream (b :: bs)) : a = b ∧ rest <+: c.stream bs := by
  have first : c.encode a <+: c.stream (b :: bs) := (List.prefix_append _ rest).trans starts
  have second : c.encode b <+: c.stream (b :: bs) := List.prefix_append _ _
  have same : a = b := by
    rcases List.prefix_or_prefix_of_prefix first second with shorter | longer
    · exact c.unique a b shorter
    · exact (c.unique b a longer).symm
  subst same
  exact ⟨rfl, (List.prefix_append_right_inj _).mp starts⟩

/-- A beginning of a stream that consists of words and a remainder: the words are
the stream's first ones, and the remainder belongs to the rest. -/
theorem stream_prefix {as bs : List α} {rest : List β}
    (starts : c.stream as ++ rest <+: c.stream bs) :
    ∃ later, bs = as ++ later ∧ rest <+: c.stream later := by
  induction as generalizing bs with
  | nil => exact ⟨bs, rfl, starts⟩
  | cons a as ih =>
      rw [stream_cons, List.append_assoc] at starts
      cases bs with
      | nil =>
          have empty := List.prefix_nil.mp starts
          exact absurd (List.append_eq_nil_iff.mp empty).1 (c.nonempty a)
      | cons b bs =>
          obtain ⟨rfl, others⟩ := head_unique starts
          obtain ⟨later, rfl, inside⟩ := ih others
          exact ⟨later, rfl, inside⟩

/-- A text that is used up by words and a remainder without a whole word. -/
theorem eq_of_incomplete {as bs : List α} {rest : List β}
    (incomplete : ∀ b, ¬ c.encode b <+: rest) (same : c.stream as ++ rest = c.stream bs) :
    as = bs := by
  have starts : c.stream as ++ rest <+: c.stream bs := same ▸ List.prefix_rfl
  obtain ⟨later, rfl, inside⟩ := stream_prefix starts
  cases later with
  | nil => rw [List.append_nil]
  | cons b later =>
      rw [stream_append, List.append_cancel_left_eq] at same
      exact absurd (same ▸ List.prefix_append _ _) (incomplete b)

end PrefixCode
