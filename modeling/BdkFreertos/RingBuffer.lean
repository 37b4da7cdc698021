import BdkFreertos.Machine
import BdkFreertos.Memory

/-!
# The audio ring buffer

`rb_read` and `rb_write` move bytes between a caller's buffer and a ring of `capacity` bytes, with
32-bit arithmetic throughout.  The write point is brought back to zero when it reaches the capacity,
the read point is not, and the writer keeps `RWP_SAFE_INTERVAL` bytes between the two.
-/

namespace BdkFreertos.RingBuffer

/-- Bytes the writer never fills, so that a full ring differs from an empty one. -/
def rwpSafeInterval : UInt32 := 4

/-- The ring-buffer record `RB_ST`. -/
structure RbSt where
  address : Memory UInt8
  capacity : UInt32
  wp : UInt32
  rp : UInt32

/-- Copy `count` bytes between two buffers, each from its own offset on. -/
def rbMemcpy (destination : Memory UInt8) (place : UInt32) (source : Memory UInt8)
    (start count : UInt32) : Memory UInt8 :=
  destination.store place.toNat (source.load start.toNat count.toNat)

/-- Attach an empty ring to a region of memory. -/
def rbInit (addr : Memory UInt8) (capacity : UInt32) : RbSt where
  address := addr
  capacity := capacity
  wp := 0
  rp := 0

/-- Copy at most `size * count` unread bytes to `buffer`; the result carries the ring, the caller's
buffer and the number of bytes read. -/
def rbRead (rb : RbSt) (buffer : Memory UInt8) (size count : UInt32) :
    RbSt × Memory UInt8 × UInt32 :=
  let requiredBytes := size * count
  let wp := rb.wp
  if requiredBytes = 0 then
    (rb, buffer, 0)
  else if wp ≥ rb.rp then
    let remainBytes := wp - rb.rp
    if requiredBytes > remainBytes then
      let readBytes := remainBytes
      ({ rb with rp := rb.rp + readBytes }, rbMemcpy buffer 0 rb.address rb.rp readBytes, readBytes)
    else
      let readBytes := requiredBytes
      ({ rb with rp := rb.rp + readBytes }, rbMemcpy buffer 0 rb.address rb.rp readBytes, readBytes)
  else
    let remainBytes := rb.capacity - rb.rp
    if requiredBytes > remainBytes then
      let readBytes := remainBytes
      let buffer := rbMemcpy buffer 0 rb.address rb.rp readBytes
      if requiredBytes - readBytes > wp then
        ({ rb with rp := wp }, rbMemcpy buffer readBytes rb.address 0 wp, readBytes + wp)
      else
        ({ rb with rp := requiredBytes - readBytes },
          rbMemcpy buffer readBytes rb.address 0 (requiredBytes - readBytes), requiredBytes)
    else
      let readBytes := requiredBytes
      ({ rb with rp := rb.rp + readBytes }, rbMemcpy buffer 0 rb.address rb.rp readBytes, readBytes)

/-- Bring a write point at the end of the ring back to zero, unless the read point is there. -/
def wrapWp (rb : RbSt) : RbSt :=
  if rb.wp ≥ rb.capacity ∧ rb.rp ≠ 0 then { rb with wp := 0 } else rb

/-- Append all `size * count` bytes of `buffer`, or none of them when they do not fit; the result
carries the ring and the number of bytes written. -/
def rbWrite (rb : RbSt) (buffer : Memory UInt8) (size count : UInt32) : RbSt × UInt32 :=
  let writeBytes := size * count
  if writeBytes = 0 then
    (rb, 0)
  else
    let rp := rb.rp
    if rb.wp ≥ rp then
      let remainBytes := rb.capacity - rb.wp + rp
      if remainBytes ≥ writeBytes + rwpSafeInterval then
        let remainBytes := rb.capacity - rb.wp
        if remainBytes ≥ writeBytes then
          (wrapWp
            { rb with
              address := rbMemcpy rb.address rb.wp buffer 0 writeBytes
              wp := rb.wp + writeBytes }, writeBytes)
        else
          let address := rbMemcpy rb.address rb.wp buffer 0 remainBytes
          let wp := writeBytes - remainBytes
          (wrapWp { rb with address := rbMemcpy address 0 buffer remainBytes wp, wp := wp },
            writeBytes)
      else
        (rb, 0)
    else
      let remainBytes := rp - rb.wp
      if remainBytes ≥ writeBytes + rwpSafeInterval then
        (wrapWp
          { rb with
            address := rbMemcpy rb.address rb.wp buffer 0 writeBytes
            wp := rb.wp + writeBytes }, writeBytes)
      else
        (rb, 0)

def rbGetFillSize (rb : RbSt) : UInt32 :=
  if rb.wp ≥ rb.rp then rb.wp - rb.rp else rb.capacity - rb.rp + rb.wp

/-- Bytes the writer may still append. -/
def rbGetFreeSize (rb : RbSt) : UInt32 :=
  let freeSize := if rb.wp ≥ rb.rp then rb.capacity - rb.wp + rb.rp else rb.rp - rb.wp
  if freeSize > rwpSafeInterval then freeSize - rwpSafeInterval else 0

/-- One complete call of the reader or of the writer. -/
inductive Call
  /-- `rb_read` into a caller's buffer. -/
  | read (buffer : Memory UInt8) (size count : UInt32)
  /-- `rb_write` from a caller's buffer. -/
  | write (buffer : Memory UInt8) (size count : UInt32)

namespace Call

/-- The number of bytes a call asks for, before 32-bit truncation. -/
def bytes : Call → ℕ
  | read _ size count => size.toNat * count.toNat
  | write _ size count => size.toNat * count.toNat

/-- The request and the safe interval together are representable in 32 bits. -/
def Representable (call : Call) : Prop :=
  call.bytes + rwpSafeInterval.toNat < 2 ^ 32

end Call

/-- What the caller of `rb_read` or `rb_write` observes. -/
inductive Reply
  | read (count : UInt32) (delivered : List UInt8)
  | wrote (count : UInt32) (accepted : List UInt8)

/-- The bytes of a run's replies that left the ring, in order. -/
def deliveredBytes : List Reply → List UInt8
  | [] => []
  | .read _ delivered :: replies => delivered ++ deliveredBytes replies
  | .wrote _ _ :: replies => deliveredBytes replies

/-- The bytes of a run's replies that entered the ring, in order. -/
def acceptedBytes : List Reply → List UInt8
  | [] => []
  | .read _ _ :: replies => acceptedBytes replies
  | .wrote _ accepted :: replies => accepted ++ acceptedBytes replies

/-- The ring buffer driven by complete calls. -/
def ringBuffer : Machine RbSt Call Reply where
  step rb
    | .read buffer size count =>
        let (after, delivered, readBytes) := rbRead rb buffer size count
        (after, .read readBytes (delivered.load 0 readBytes.toNat))
    | .write buffer size count =>
        let (after, writeBytes) := rbWrite rb buffer size count
        (after, .wrote writeBytes (buffer.load 0 writeBytes.toNat))

end BdkFreertos.RingBuffer
