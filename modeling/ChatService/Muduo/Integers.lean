import ChatService.Muduo.Buffer

/-!
# Integers in a buffer (`muduo/net/Buffer.h`, `Endian.h`)

The methods for the four widths do the same; they are written once for a width of `n` bytes.  A value is
written and read in network byte order: `hostToNetwork` and the copy of the object's bytes put the highest
byte first.
-/

namespace ChatService.Muduo.Buffer

/-- The bytes of the value after `hostToNetwork`. -/
def networkBytes {n : ℕ} (x : BitVec (8 * n)) : Bytes := BigEndian.encode n x.toNat

/-- `networkToHost` of the bytes. -/
def hostValue (n : ℕ) (bytes : Bytes) : BitVec (8 * n) := BitVec.ofNat (8 * n) (BigEndian.decode bytes)

def appendInt (b : Buffer) {n : ℕ} (x : BitVec (8 * n)) : Buffer := b.append (networkBytes x)

def peekInt (b : Buffer) (n : ℕ) (_ : n ≤ b.readableBytes) : BitVec (8 * n) := hostValue n (b.contents.take n)

def readInt (b : Buffer) (n : ℕ) (h : n ≤ b.readableBytes) : BitVec (8 * n) × Buffer :=
  (b.peekInt n h, b.retrieve n h)

def prependInt (b : Buffer) {n : ℕ} (x : BitVec (8 * n)) (h : n ≤ b.prependableBytes) : Buffer :=
  b.prepend (networkBytes x) (by rwa [networkBytes, BigEndian.length_encode])

def appendInt64 (b : Buffer) (x : BitVec 64) : Buffer := b.appendInt (n := 8) x
def appendInt32 (b : Buffer) (x : BitVec 32) : Buffer := b.appendInt (n := 4) x
def appendInt16 (b : Buffer) (x : BitVec 16) : Buffer := b.appendInt (n := 2) x
def appendInt8 (b : Buffer) (x : BitVec 8) : Buffer := b.appendInt (n := 1) x

def peekInt64 (b : Buffer) (h : 8 ≤ b.readableBytes) : BitVec 64 := b.peekInt 8 h
def peekInt32 (b : Buffer) (h : 4 ≤ b.readableBytes) : BitVec 32 := b.peekInt 4 h
def peekInt16 (b : Buffer) (h : 2 ≤ b.readableBytes) : BitVec 16 := b.peekInt 2 h
def peekInt8 (b : Buffer) (h : 1 ≤ b.readableBytes) : BitVec 8 := b.peekInt 1 h

def readInt64 (b : Buffer) (h : 8 ≤ b.readableBytes) : BitVec 64 × Buffer := b.readInt 8 h
def readInt32 (b : Buffer) (h : 4 ≤ b.readableBytes) : BitVec 32 × Buffer := b.readInt 4 h
def readInt16 (b : Buffer) (h : 2 ≤ b.readableBytes) : BitVec 16 × Buffer := b.readInt 2 h
def readInt8 (b : Buffer) (h : 1 ≤ b.readableBytes) : BitVec 8 × Buffer := b.readInt 1 h

def prependInt64 (b : Buffer) (x : BitVec 64) (h : 8 ≤ b.prependableBytes) : Buffer := b.prependInt (n := 8) x h
def prependInt32 (b : Buffer) (x : BitVec 32) (h : 4 ≤ b.prependableBytes) : Buffer := b.prependInt (n := 4) x h
def prependInt16 (b : Buffer) (x : BitVec 16) (h : 2 ≤ b.prependableBytes) : Buffer := b.prependInt (n := 2) x h
def prependInt8 (b : Buffer) (x : BitVec 8) (h : 1 ≤ b.prependableBytes) : Buffer := b.prependInt (n := 1) x h

@[simp] theorem length_networkBytes {n : ℕ} (x : BitVec (8 * n)) : (networkBytes x).length = n :=
  BigEndian.length_encode n x.toNat

theorem two_pow_eight_mul (n : ℕ) : 2 ^ (8 * n) = 256 ^ n := by
  rw [Nat.pow_mul]

/-- The bytes of a value give it back. -/
theorem hostValue_networkBytes {n : ℕ} (x : BitVec (8 * n)) : hostValue n (networkBytes x) = x := by
  apply BitVec.eq_of_toNat_eq
  rw [hostValue, networkBytes, BigEndian.decode_encode, BitVec.toNat_ofNat, ← two_pow_eight_mul, Nat.mod_mod]
  exact Nat.mod_eq_of_lt x.isLt

/-- And a value gives its bytes back. -/
theorem networkBytes_hostValue (bytes : Bytes) : networkBytes (hostValue bytes.length bytes) = bytes := by
  have hlt := BigEndian.decode_lt bytes
  rw [networkBytes, hostValue, BitVec.toNat_ofNat, two_pow_eight_mul, Nat.mod_eq_of_lt hlt,
    BigEndian.encode_decode]

/-- A value of any of the widths. -/
abbrev AnyInt := (n : ℕ) × BitVec (8 * n)

def appendInts (b : Buffer) (values : List AnyInt) : Buffer :=
  values.foldl (fun b value => b.appendInt value.2) b

/-- Read values of these widths one after another. -/
def readInts (b : Buffer) : List ℕ → Option (List AnyInt × Buffer)
  | [] => some ([], b)
  | n :: widths =>
    if h : n ≤ b.readableBytes then
      ((b.readInt n h).2.readInts widths).map fun rest => (⟨n, (b.readInt n h).1⟩ :: rest.1, rest.2)
    else none

theorem contents_appendInts (b : Buffer) (values : List AnyInt) :
    (b.appendInts values).contents = b.contents ++ values.flatMap fun value => networkBytes value.2 := by
  induction values generalizing b with
  | nil => simp [appendInts]
  | cons value values ih =>
    show ((b.appendInt value.2).appendInts values).contents = _
    rw [ih, appendInt, contents_append, List.flatMap_cons, List.append_assoc]

/-- What stands in front of the content is read in the order in which it stands there. -/
theorem readInts_of_contents (values : List AnyInt) (rest : Bytes) (b : Buffer)
    (h : b.contents = (values.flatMap fun value => networkBytes value.2) ++ rest) :
    ∃ b', b.readInts (values.map Sigma.fst) = some (values, b') ∧ b'.contents = rest := by
  induction values generalizing b with
  | nil => exact ⟨b, rfl, h⟩
  | cons value values ih =>
    obtain ⟨n, x⟩ := value
    rw [List.flatMap_cons, List.append_assoc] at h
    have hlength : n ≤ b.readableBytes := by
      rw [← length_contents, h, List.length_append, length_networkBytes]
      exact Nat.le_add_right _ _
    have hvalue : (b.readInt n hlength).1 = x := by
      rw [readInt, peekInt, h, List.take_left' (length_networkBytes x)]
      exact hostValue_networkBytes x
    have hcontents : (b.readInt n hlength).2.contents =
        (values.flatMap fun value => networkBytes value.2) ++ rest := by
      rw [readInt, contents_retrieve, h]
      exact List.drop_left' (length_networkBytes x)
    obtain ⟨b', hreads, hrest⟩ := ih _ hcontents
    refine ⟨b', ?_, hrest⟩
    rw [List.map_cons, readInts, dif_pos hlength, hreads, hvalue]
    rfl

/-- **Integers are read back as they were written.**  Values of any widths that are appended to a buffer are
read back in order behind what the buffer held, and what is appended afterwards is left; a value that is
prepended is the next to be read; and the bytes of a value that was read are those that stood there. -/
theorem integers_are_read_back (b : Buffer) (values : List AnyInt) (later : Bytes) :
    (∃ b', (((b.appendInts values).append later).retrieve b.readableBytes (by
        rw [← length_contents, ← length_contents, contents_append, contents_appendInts]
        simp only [List.length_append]
        omega)).readInts (values.map Sigma.fst) = some (values, b') ∧ b'.contents = later) ∧
      (∀ (n : ℕ) (x : BitVec (8 * n)) (h : n ≤ b.prependableBytes), ∃ b',
        (b.prependInt x h).readInts [n] = some ([⟨n, x⟩], b') ∧ b'.contents = b.contents) ∧
      ∀ bytes : Bytes, networkBytes (hostValue bytes.length bytes) = bytes := by
  refine ⟨?_, ?_, networkBytes_hostValue⟩
  · apply readInts_of_contents
    rw [contents_retrieve, contents_append, contents_appendInts, List.append_assoc]
    exact List.drop_left' (length_contents b)
  · intro n x h
    have hcontents := b.contents_prepend (networkBytes x) (by rwa [length_networkBytes])
    exact readInts_of_contents [⟨n, x⟩] b.contents (b.prependInt x h) (by simpa [prependInt] using hcontents)

/-- A length that is put in front of a message is read first. -/
theorem length_is_read_first :
    ∃ b', (((new 16).append (ascii "hi")).prependInt (n := 4) 2 (by decide +kernel)).readInts [4] =
      some ([⟨4, 2⟩], b') ∧ b'.contents = ascii "hi" := by
  have hcontents : ((new 16).append (ascii "hi")).contents = ascii "hi" := by
    rw [contents_append, contents_new, List.nil_append]
  obtain ⟨b', hreads, hrest⟩ := (integers_are_read_back ((new 16).append (ascii "hi")) [] []).2.1 4 2
    (by decide +kernel)
  exact ⟨b', hreads, hrest.trans hcontents⟩

end ChatService.Muduo.Buffer
