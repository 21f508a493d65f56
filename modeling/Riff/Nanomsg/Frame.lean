import Riff.Lib.PrefixCode
import Riff.Nanomsg.Wire

set_option autoImplicit false

namespace Riff.Nanomsg

/-- The content of a message, with a size that `size_t` holds. -/
@[ext] structure Payload where
  bytes : List UInt8
  fits : bytes.length < 2 ^ 64
  deriving DecidableEq

/-- `nn_msg`: the SP header and the body. -/
structure Msg where
  sphdr : List UInt8
  body : List UInt8
  fits : sphdr.length + body.length < 2 ^ 64

def Msg.payload (msg : Msg) : Payload where
  bytes := msg.sphdr ++ msg.body
  fits := by
    rw [List.length_append]
    exact msg.fits

namespace Payload

def size (p : Payload) : UInt64 := .ofNat p.bytes.length

/-- A chunk of the given size, filled from a buffer. -/
def ofBuffer (size : UInt64) (buf : List UInt8) : Payload where
  bytes := buf.take size.toNat
  fits := by
    rw [List.length_take]
    exact Nat.lt_of_le_of_lt (Nat.min_le_left ..) size.toNat_lt

@[simp] theorem toNat_size (p : Payload) : p.size.toNat = p.bytes.length := by
  rw [size, UInt64.toNat_ofNat']
  exact Nat.mod_eq_of_lt p.fits

theorem ofBuffer_bytes {size : UInt64} {buf : List UInt8} (length : buf.length = size.toNat) :
    (ofBuffer size buf).bytes = buf := by
  show buf.take size.toNat = buf
  rw [← length, List.take_length]

theorem ofBuffer_size {size : UInt64} {buf : List UInt8} (length : buf.length = size.toNat) :
    (ofBuffer size buf).size = size := by
  apply UInt64.toNat.inj
  rw [toNat_size, ofBuffer_bytes length, length]

end Payload

def msgNormal : UInt8 := 1

/-- `outhdr`: the type of the message and its size. -/
def msgHeader (size : UInt64) : List UInt8 := msgNormal :: putll size

def frame (p : Payload) : List UInt8 := msgHeader p.size ++ p.bytes

@[simp] theorem msgHeader_length (size : UInt64) : (msgHeader size).length = 9 := rfl

theorem msgHeader_of_length {buf : List UInt8} (length : buf.length = 9)
    (normal : buf.head? = some msgNormal) : msgHeader (getll buf.tail) = buf := by
  cases buf with
  | nil => cases normal
  | cons type size =>
      cases normal
      rw [msgHeader, List.tail_cons, putll_getll size (Nat.succ.inj length)]

theorem msgHeader_injective {size size' : UInt64} (same : msgHeader size = msgHeader size') :
    size = size' := by
  rw [← getll_putll size, ← getll_putll size', List.cons.inj same |>.2]

theorem frame_length (p : Payload) : (frame p).length = 9 + p.bytes.length := by
  rw [frame, List.length_append, msgHeader_length]

theorem frame_ofBuffer {size : UInt64} {buf : List UInt8} (length : buf.length = size.toNat) :
    frame (.ofBuffer size buf) = msgHeader size ++ buf := by
  rw [frame, Payload.ofBuffer_size length, Payload.ofBuffer_bytes length]

/-- What the nine bytes of a header decide. -/
theorem msgHeader_prefix {size size' : UInt64} {bytes : List UInt8}
    (first : msgHeader size <+: bytes) (second : msgHeader size' <+: bytes) : size = size' := by
  have length : (msgHeader size).length = (msgHeader size').length := by
    rw [msgHeader_length, msgHeader_length]
  apply msgHeader_injective
  exact (List.prefix_of_prefix_length_le first second length.le).eq_of_length length

theorem frame_header {p q : Payload} {rest : List UInt8} (starts : frame p <+: frame q ++ rest) :
    p.size = q.size := by
  have first : msgHeader p.size <+: frame q ++ rest := (List.prefix_append _ _).trans starts
  have second : msgHeader q.size <+: frame q ++ rest :=
    (List.prefix_append _ _).trans (List.prefix_append _ _)
  exact msgHeader_prefix first second

/-- A header whose message has not come as a whole. -/
theorem frame_incomplete {size : UInt64} {buf : List UInt8} (short : buf.length < size.toNat)
    (p : Payload) : ¬ frame p <+: msgHeader size ++ buf := by
  intro starts
  have first : msgHeader p.size <+: msgHeader size ++ buf :=
    (List.prefix_append _ _).trans starts
  have same : p.size = size := msgHeader_prefix first (List.prefix_append _ _)
  rw [frame, same, List.prefix_append_right_inj] at starts
  have longer := starts.length_le
  rw [← Payload.toNat_size, same] at longer
  omega

theorem frame_unique (p q : Payload) (starts : frame p <+: frame q) : p = q := by
  have size : p.size = q.size := by
    rw [← List.append_nil (frame q)] at starts
    exact frame_header starts
  rw [frame, frame, size] at starts
  have content := (List.prefix_append_right_inj _).mp starts
  ext1
  apply content.eq_of_length
  rw [← Payload.toNat_size, size, Payload.toNat_size]

/-- Messages on a stream: the type, the size and that many bytes. -/
def framing : PrefixCode Payload UInt8 where
  encode := frame
  nonempty _ := List.cons_ne_nil _ _
  unique := frame_unique

end Riff.Nanomsg
