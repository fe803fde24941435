import DotHttp.Text.Lines
import DotHttp.Text.Utf8

/-!
What the bytes of a file read as. Bytes below 128 stand for the characters with their numbers, and a text
without carriage returns keeps its line ends.
-/

namespace DotHttp.Text

/-- The bytes of a text whose characters have numbers below 128. -/
def asciiBytes (s : List Char) : List UInt8 :=
  s.map fun c => UInt8.ofNat c.toNat

theorem decodeUtf8From_ascii {s : List Char} (ascii : ∀ c ∈ s, c.toNat < 128) (position : Nat) :
    decodeUtf8From position (asciiBytes s) = .ok s := by
  induction s generalizing position with
  | nil =>
    rw [asciiBytes, List.map_nil, decodeUtf8From]
  | cons c s ih =>
    obtain ⟨here, later⟩ := List.forall_mem_cons.1 ascii
    have value : (UInt8.ofNat c.toNat).toNat = c.toNat := by
      rw [UInt8.toNat_ofNat', Nat.mod_eq_of_lt (Nat.lt_trans here (by decide))]
    have low : UInt8.ofNat c.toNat < 0x80 := by
      rw [UInt8.lt_iff_toNat_lt, value]
      exact here
    have lead : utf8Lead (UInt8.ofNat c.toNat) = some (1, 0x80, 0xbf) := by
      rw [utf8Lead, if_pos low]
    rw [asciiBytes, List.map_cons, ← asciiBytes]
    -- From here on the byte is a variable, or its arithmetic would be unfolded below.
    generalize UInt8.ofNat c.toNat = b at value low lead ⊢
    have tail (bytes : List UInt8) :
        utf8Tail (1 - 1) 0x80 0xbf 1 (utf8LeadValue 1 b) bytes = .ok (c.toNat, bytes) := by
      rw [← value]
      rfl
    rw [decodeUtf8From, lead]
    dsimp only
    split
    · next failed =>
      rw [tail] at failed
      cases failed
    · next read =>
      rw [tail] at read
      cases read
      rw [ih later, Except.map, Char.ofNat_toNat]

theorem unifyNewlines_of_no_return {s : List Char} (h : '\r' ∉ s) : unifyNewlines s = s := by
  induction s with
  | nil => rfl
  | cons c s ih =>
    rw [List.mem_cons, not_or] at h
    rw [unifyNewlines.eq_3 _ _ (fun _ e => (h.1 e.symm).elim), if_neg (Ne.symm h.1), ih h.2]

/-- Whether a character is a byte of its own that is read as it is. -/
def isPlainByte (c : Char) : Bool :=
  c.toNat < 128 && c != '\r'

theorem reads_plain {s : List Char} (h : s.all isPlainByte = true) :
    decodeUtf8 (asciiBytes s) = .ok s ∧ unifyNewlines s = s := by
  have plain : ∀ c ∈ s, c.toNat < 128 ∧ c ≠ '\r' := by
    simpa [isPlainByte] using h
  constructor
  · exact decodeUtf8From_ascii (fun c hc => (plain c hc).1) 0
  · exact unifyNewlines_of_no_return fun hc => (plain _ hc).2 rfl

theorem toList_loop (bytes : ByteArray) (i : Nat) (read : List UInt8) :
    ByteArray.toList.loop bytes i read = read.reverse ++ bytes.data.toList.drop i := by
  fun_induction ByteArray.toList.loop bytes i read with
  | case1 i read inside ih =>
    have position : i < bytes.data.toList.length := inside
    have byte : bytes.get! i = bytes.data.toList[i] := getElem!_pos bytes.data i inside
    rw [ih, List.drop_eq_getElem_cons position, byte, List.reverse_cons, List.append_assoc]
    rfl
  | case2 i read outside =>
    rw [List.drop_eq_nil_of_le (Nat.le_of_not_lt outside), List.append_nil]

/-- The bytes of a text tell it. -/
theorem ofList_toUTF8_injective {s t : List Char}
    (h : (String.ofList s).toUTF8.toList = (String.ofList t).toUTF8.toList) : s = t := by
  have bytes (b : ByteArray) : b.toList = b.data.toList := by
    rw [ByteArray.toList, toList_loop, List.reverse_nil, List.nil_append, List.drop_zero]
  rw [bytes, bytes, Array.toList_inj] at h
  exact String.ofList_inj.1 (String.toByteArray_inj.1 (ByteArray.ext h))

end DotHttp.Text
