import ChatService.Foundation.BigEndian
import ChatService.Foundation.Bytes
import ChatService.Foundation.Slices

/-!
# `Buffer`: a byte queue in a vector (`muduo/net/Buffer.h`, `Buffer.cc`)

The bytes between the two indexes are the content.  Writing moves `writerIndex` up, reading moves
`readerIndex` up; when there is no room behind the content, `makeSpace` grows the vector or moves the content
to the front.  The indexes never leave the vector, which the structure says itself.

Where the source asserts something of an argument, the method takes a proof of it.  Positions are offsets from
`peek()`, and `none` stands for the null pointer.

`BufferOperation.apply_contents` is what a user of the buffer may rely on: whatever happens inside, the content
is a queue of bytes.
-/

namespace ChatService.Muduo

open Slices Byte

def kCheapPrepend : ℕ := 8

def kInitialSize : ℕ := 1024

structure Buffer where
  buffer : Bytes
  readerIndex : ℕ
  writerIndex : ℕ
  cheap : kCheapPrepend ≤ buffer.length
  readable : readerIndex ≤ writerIndex
  writable : writerIndex ≤ buffer.length

namespace Buffer

/-- The constructor. -/
def new (initialSize : ℕ) : Buffer where
  buffer := List.replicate (kCheapPrepend + initialSize) 0
  readerIndex := kCheapPrepend
  writerIndex := kCheapPrepend
  cheap := by simp
  readable := le_rfl
  writable := by simp

def readableBytes (b : Buffer) : ℕ := b.writerIndex - b.readerIndex

def writableBytes (b : Buffer) : ℕ := b.buffer.length - b.writerIndex

def prependableBytes (b : Buffer) : ℕ := b.readerIndex

/-- The bytes from `peek()` up to `beginWrite()`. -/
def contents (b : Buffer) : Bytes := slice b.buffer b.readerIndex b.writerIndex

@[simp] theorem length_contents (b : Buffer) : b.contents.length = b.readableBytes :=
  length_slice b.writable

theorem contents_new (initialSize : ℕ) : (new initialSize).contents = [] := slice_self _

/-! ### Looking -/

/-- `static_cast<int>` of a size. -/
def castInt (size : ℕ) : ℤ := (size : ℤ).bmod (2 ^ 32)

theorem castInt_of_lt {size : ℕ} (h : size < 2 ^ 31) : castInt size = size := Int.bmod_eq_of_le (by omega) (by omega)

theorem castInt_nonneg {size : ℕ} (h : size < 2 ^ 31) : 0 ≤ castInt size := by
  rw [castInt_of_lt h]
  exact Int.natCast_nonneg _

/-- The length of a `StringPiece` is an `int`; a negative one stands for no bytes. -/
def toStringPiece (b : Buffer) (_ : 0 ≤ castInt b.readableBytes) : Bytes :=
  b.contents.take (castInt b.readableBytes).toNat

theorem toStringPiece_of_lt {b : Buffer} (hlt : b.readableBytes < 2 ^ 31) (h : 0 ≤ castInt b.readableBytes) :
    b.toStringPiece h = b.contents := by
  rw [toStringPiece, castInt_of_lt hlt, Int.toNat_natCast, ← length_contents, List.take_length]

def findEOL (b : Buffer) : Option ℕ := b.contents.findIdx? (· == newline)

/-- `findEOL(start)`; the answer is an offset from `peek()`, too. -/
def findEOLFrom (b : Buffer) (start : ℕ) : Option ℕ :=
  ((b.contents.drop start).findIdx? (· == newline)).map (start + ·)

/-- `std::search` for a carriage return and a newline. -/
def searchCRLF : Bytes → Option ℕ
  | [] => none
  | byte :: bytes =>
    if byte = carriageReturn ∧ bytes.head? = some newline then some 0 else (searchCRLF bytes).map (· + 1)

def findCRLF (b : Buffer) : Option ℕ := searchCRLF b.contents

/-! ### Reading -/

def retrieveAll (b : Buffer) : Buffer where
  buffer := b.buffer
  readerIndex := kCheapPrepend
  writerIndex := kCheapPrepend
  cheap := b.cheap
  readable := le_rfl
  writable := b.cheap

def retrieve (b : Buffer) (len : ℕ) (_ : len ≤ b.readableBytes) : Buffer :=
  if hless : len < b.readableBytes then
    { b with
      readerIndex := b.readerIndex + len
      readable := by
        rw [readableBytes] at hless
        omega }
  else b.retrieveAll

/-- `retrieveAsString`. -/
def retrieveAsString (b : Buffer) (len : ℕ) (h : len ≤ b.readableBytes) : Bytes × Buffer :=
  (b.contents.take len, b.retrieve len h)

def retrieveAllAsString (b : Buffer) : Bytes × Buffer := b.retrieveAsString b.readableBytes le_rfl

theorem contents_retrieveAll (b : Buffer) : b.retrieveAll.contents = [] := slice_self _

theorem contents_retrieve (b : Buffer) (len : ℕ) (h : len ≤ b.readableBytes) :
    (b.retrieve len h).contents = b.contents.drop len := by
  rw [retrieve]
  split_ifs with hless
  · exact (drop_slice len).symm
  · rw [contents_retrieveAll, List.drop_eq_nil_of_le]
    rw [length_contents]
    omega

/-! ### Writing -/

/-- `hasWritten`, after `data` was copied to `beginWrite()`. -/
def hasWritten (b : Buffer) (data : Bytes) (h : data.length ≤ b.writableBytes) : Buffer where
  buffer := overwrite b.buffer b.writerIndex data
  readerIndex := b.readerIndex
  writerIndex := b.writerIndex + data.length
  cheap := by
    have hroom := b.writable
    rw [writableBytes] at h
    rw [length_overwrite (by omega)]
    exact b.cheap
  readable := b.readable.trans (Nat.le_add_right _ _)
  writable := by
    have hroom := b.writable
    rw [writableBytes] at h
    rw [length_overwrite (by omega)]
    omega

theorem contents_hasWritten (b : Buffer) (data : Bytes) (h : data.length ≤ b.writableBytes) :
    (b.hasWritten data h).contents = b.contents ++ data := by
  show slice (overwrite b.buffer b.writerIndex data) b.readerIndex (b.writerIndex + data.length) = _
  rw [← slice_append_slice b.readable (Nat.le_add_right _ _), slice_overwrite_before b.writable le_rfl,
    slice_overwrite_self b.writable]
  rfl

/-- The second branch of `makeSpace`: there is room, but part of it is in front of the content. -/
theorem room_in_front {b : Buffer} {len : ℕ} (h : b.writableBytes < len)
    (hroom : ¬ b.writableBytes + b.prependableBytes < len + kCheapPrepend) :
    kCheapPrepend < b.readerIndex := by
  rw [prependableBytes] at hroom
  omega

/-- So the content fits behind the first bytes. -/
theorem contents_fit {b : Buffer} (hfront : kCheapPrepend < b.readerIndex) :
    kCheapPrepend + b.contents.length ≤ b.buffer.length := by
  have hreadable := b.readable
  have hwritable := b.writable
  rw [length_contents, readableBytes]
  omega

/-- `makeSpace`: the vector grows, or the content moves to the front. -/
def makeSpace (b : Buffer) (len : ℕ) (h : b.writableBytes < len) : Buffer :=
  if hgrow : b.writableBytes + b.prependableBytes < len + kCheapPrepend then
    { buffer := resize b.buffer (b.writerIndex + len) 0
      readerIndex := b.readerIndex
      writerIndex := b.writerIndex
      cheap := by
        have hcheap := b.cheap
        rw [writableBytes] at h
        rw [length_resize]
        omega
      readable := b.readable
      writable := by
        rw [length_resize]
        exact Nat.le_add_right _ _ }
  else
    have hfits := contents_fit (room_in_front h hgrow)
    { buffer := overwrite b.buffer kCheapPrepend b.contents
      readerIndex := kCheapPrepend
      writerIndex := kCheapPrepend + b.readableBytes
      cheap := by
        rw [length_overwrite hfits]
        exact b.cheap
      readable := Nat.le_add_right _ _
      writable := by
        rw [length_overwrite hfits, ← length_contents]
        exact hfits }

theorem contents_makeSpace (b : Buffer) (len : ℕ) (h : b.writableBytes < len) :
    (b.makeSpace len h).contents = b.contents := by
  rw [makeSpace]
  split_ifs with hgrow
  · refine slice_resize b.writable ?_
    have hwritable := b.writable
    rw [writableBytes] at h
    omega
  · show slice (overwrite b.buffer kCheapPrepend b.contents) kCheapPrepend (kCheapPrepend + b.readableBytes) = _
    rw [← length_contents]
    exact slice_overwrite_self b.cheap

/-- There is room then. -/
theorem writableBytes_makeSpace (b : Buffer) (len : ℕ) (h : b.writableBytes < len) :
    len ≤ (b.makeSpace len h).writableBytes := by
  rw [makeSpace]
  split_ifs with hgrow
  · show len ≤ (resize b.buffer (b.writerIndex + len) 0).length - b.writerIndex
    rw [length_resize]
    omega
  · have hfits := contents_fit (room_in_front h hgrow)
    have hreadable := b.readable
    have hwritable := b.writable
    rw [writableBytes, prependableBytes] at hgrow
    show len ≤ (overwrite b.buffer kCheapPrepend b.contents).length - (kCheapPrepend + b.readableBytes)
    rw [length_overwrite hfits, readableBytes]
    omega

def ensureWritableBytes (b : Buffer) (len : ℕ) : Buffer :=
  if h : b.writableBytes < len then b.makeSpace len h else b

theorem contents_ensureWritableBytes (b : Buffer) (len : ℕ) :
    (b.ensureWritableBytes len).contents = b.contents := by
  rw [ensureWritableBytes]
  split_ifs with h
  · exact b.contents_makeSpace len h
  · rfl

/-- The assertion at the end of `ensureWritableBytes`. -/
theorem le_writableBytes (b : Buffer) (len : ℕ) : len ≤ (b.ensureWritableBytes len).writableBytes := by
  rw [ensureWritableBytes]
  split_ifs with h
  · exact b.writableBytes_makeSpace len h
  · omega

def append (b : Buffer) (data : Bytes) : Buffer :=
  (b.ensureWritableBytes data.length).hasWritten data (b.le_writableBytes data.length)

theorem contents_append (b : Buffer) (data : Bytes) : (b.append data).contents = b.contents ++ data := by
  rw [append, contents_hasWritten, contents_ensureWritableBytes]

def unwrite (b : Buffer) (len : ℕ) (_ : len ≤ b.readableBytes) : Buffer :=
  { b with
    writerIndex := b.writerIndex - len
    readable := by
      rename_i h
      have hreadable := b.readable
      rw [readableBytes] at h
      omega
    writable := (Nat.sub_le _ _).trans b.writable }

theorem contents_unwrite (b : Buffer) (len : ℕ) (h : len ≤ b.readableBytes) :
    (b.unwrite len h).contents = b.contents.take (b.contents.length - len) := by
  have hreadable := b.readable
  rw [length_contents]
  rw [readableBytes] at h ⊢
  have hlength : b.writerIndex - b.readerIndex - len = b.writerIndex - len - b.readerIndex := by omega
  rw [hlength]
  exact (take_slice (Nat.sub_le _ _)).symm

def prepend (b : Buffer) (data : Bytes) (h : data.length ≤ b.prependableBytes) : Buffer where
  buffer := overwrite b.buffer (b.readerIndex - data.length) data
  readerIndex := b.readerIndex - data.length
  writerIndex := b.writerIndex
  cheap := by
    have hreadable := b.readable
    have hwritable := b.writable
    rw [prependableBytes] at h
    rw [length_overwrite (by omega)]
    exact b.cheap
  readable := (Nat.sub_le _ _).trans b.readable
  writable := by
    have hreadable := b.readable
    have hwritable := b.writable
    rw [prependableBytes] at h
    rw [length_overwrite (by omega)]
    exact b.writable

theorem contents_prepend (b : Buffer) (data : Bytes) (h : data.length ≤ b.prependableBytes) :
    (b.prepend data h).contents = data ++ b.contents := by
  have hreadable := b.readable
  have hwritable := b.writable
  rw [prependableBytes] at h
  have hend : b.readerIndex - data.length + data.length = b.readerIndex := by omega
  show slice (overwrite b.buffer (b.readerIndex - data.length) data) (b.readerIndex - data.length) b.writerIndex = _
  rw [← slice_append_slice (Nat.sub_le _ _) b.readable]
  congr 1
  · have hself : slice (overwrite b.buffer (b.readerIndex - data.length) data) (b.readerIndex - data.length)
        (b.readerIndex - data.length + data.length) = data := slice_overwrite_self (by omega)
    rwa [hend] at hself
  · exact slice_overwrite_after (by omega) hend.le

/-- The content goes into a fresh buffer, through `toStringPiece`. -/
def shrink (b : Buffer) (reserve : ℕ) (h : 0 ≤ castInt b.readableBytes) : Buffer :=
  ((new kInitialSize).ensureWritableBytes (b.readableBytes + reserve)).append (b.toStringPiece h)

/-- From `2 ^ 31` bytes on, content is lost. -/
theorem contents_shrink {b : Buffer} (hlt : b.readableBytes < 2 ^ 31) (reserve : ℕ)
    (h : 0 ≤ castInt b.readableBytes) : (b.shrink reserve h).contents = b.contents := by
  rw [shrink, contents_append, contents_ensureWritableBytes, contents_new, List.nil_append, toStringPiece_of_lt hlt]

/-! ### Reading from a socket -/

/-- `sizeof extrabuf`. -/
def kExtrabuf : ℕ := 65536

/-- How much `readv` may fill: the space behind the content, and `extrabuf` if that is less. -/
def readCapacity (b : Buffer) : ℕ :=
  if b.writableBytes < kExtrabuf then b.writableBytes + kExtrabuf else b.writableBytes

/-- `readFd`, when `readv` has stored `data`: what does not fit behind the content is in `extrabuf`, and is
appended. -/
def readFd (b : Buffer) (data : Bytes) : Buffer :=
  if h : data.length ≤ b.writableBytes then b.hasWritten data h
  else
    (b.hasWritten (data.take b.writableBytes) (by simp)).append (data.drop b.writableBytes)

theorem contents_readFd (b : Buffer) (data : Bytes) : (b.readFd data).contents = b.contents ++ data := by
  rw [readFd]
  split_ifs with h
  · exact b.contents_hasWritten data h
  · rw [contents_append, contents_hasWritten, List.append_assoc, List.take_append_drop]

end Buffer

/-! ### The content is a queue -/

inductive BufferOperation where
  | append (data : Bytes)
  | retrieve (len : ℕ)
  | retrieveAll
  | ensureWritableBytes (len : ℕ)
  | unwrite (len : ℕ)
  | prepend (data : Bytes)
  | shrink (reserve : ℕ)
  | readFd (data : Bytes)
deriving DecidableEq

namespace BufferOperation

/-- What the assertions ask, that `readv` stores no more than it may, and that the size of what is shrunk is an
`int`. -/
def Asserted (b : Buffer) : BufferOperation → Prop
  | retrieve len => len ≤ b.readableBytes
  | unwrite len => len ≤ b.readableBytes
  | prepend data => data.length ≤ b.prependableBytes
  | readFd data => data.length ≤ b.readCapacity
  | shrink _ => b.readableBytes < 2 ^ 31
  | _ => True

instance (b : Buffer) : DecidablePred (Asserted b)
  | retrieve _ => inferInstanceAs (Decidable (_ ≤ _))
  | unwrite _ => inferInstanceAs (Decidable (_ ≤ _))
  | prepend _ => inferInstanceAs (Decidable (_ ≤ _))
  | readFd _ => inferInstanceAs (Decidable (_ ≤ _))
  | append _ => inferInstanceAs (Decidable True)
  | retrieveAll => inferInstanceAs (Decidable True)
  | ensureWritableBytes _ => inferInstanceAs (Decidable True)
  | shrink _ => inferInstanceAs (Decidable (_ < _))

def apply (b : Buffer) : (operation : BufferOperation) → operation.Asserted b → Buffer
  | append data, _ => b.append data
  | retrieve len, h => b.retrieve len h
  | retrieveAll, _ => b.retrieveAll
  | ensureWritableBytes len, _ => b.ensureWritableBytes len
  | unwrite len, h => b.unwrite len h
  | prepend data, h => b.prepend data h
  | shrink reserve, h => b.shrink reserve (Buffer.castInt_nonneg h)
  | readFd data, _ => b.readFd data

/-- What it does to a queue of bytes. -/
def effect (queue : Bytes) : BufferOperation → Bytes
  | append data => queue ++ data
  | retrieve len => queue.drop len
  | retrieveAll => []
  | ensureWritableBytes _ => queue
  | unwrite len => queue.take (queue.length - len)
  | prepend data => data ++ queue
  | shrink _ => queue
  | readFd data => queue ++ data

/-- **One operation on the buffer is one on the queue.** -/
theorem apply_contents (b : Buffer) (operation : BufferOperation) (h : operation.Asserted b) :
    (operation.apply b h).contents = operation.effect b.contents := by
  cases operation with
  | append data => exact b.contents_append data
  | retrieve len => exact b.contents_retrieve len h
  | retrieveAll => exact b.contents_retrieveAll
  | ensureWritableBytes len => exact b.contents_ensureWritableBytes len
  | unwrite len => exact b.contents_unwrite len h
  | prepend data => exact b.contents_prepend data h
  | shrink reserve => exact Buffer.contents_shrink h reserve _
  | readFd data => exact b.contents_readFd data

/-- A sequence of operations; it stops at one that is not asserted. -/
def applyAll (b : Buffer) : List BufferOperation → Option Buffer
  | [] => some b
  | operation :: operations =>
    if h : operation.Asserted b then applyAll (operation.apply b h) operations else none

end BufferOperation

/-- **The buffer is a queue of bytes.**  Whatever is done to a buffer, as long as no assertion fails and nothing of
`2 ^ 31` bytes is shrunk, its content is that of a queue to which the same is done, and its indexes stay in order and
inside the vector. -/
theorem buffer_is_a_queue (operations : List BufferOperation) (b b' : Buffer)
    (h : BufferOperation.applyAll b operations = some b') :
    b'.contents = operations.foldl BufferOperation.effect b.contents ∧
      b'.readerIndex ≤ b'.writerIndex ∧ b'.writerIndex ≤ b'.buffer.length := by
  refine ⟨?_, b'.readable, b'.writable⟩
  induction operations generalizing b with
  | nil =>
    obtain rfl := Option.some.inj h
    rfl
  | cons operation operations ih =>
    rw [BufferOperation.applyAll] at h
    split_ifs at h with hasserted
    rw [ih _ h, BufferOperation.apply_contents, List.foldl_cons]

/-- A buffer that is moved to the front, grown and shrunk. -/
def busyOperations : List BufferOperation :=
  [.append (ascii "hello"), .retrieve 3, .append (ascii " there"), .prepend (ascii ">"), .readFd (ascii "!!"),
    .unwrite 1, .shrink 10]

theorem busyOperations_contents :
    ∃ b', BufferOperation.applyAll (.new 8) busyOperations = some b' ∧ b'.contents = ascii ">lo there!" := by
  have hsome : (BufferOperation.applyAll (.new 8) busyOperations).isSome = true := by decide +kernel
  obtain ⟨b', h⟩ := Option.isSome_iff_exists.mp hsome
  exact ⟨b', h, (buffer_is_a_queue busyOperations (.new 8) b' h).1.trans (by decide +kernel)⟩

end ChatService.Muduo
