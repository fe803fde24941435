import DotHttp.Text.Base64
import Mathlib.Algebra.BigOperators.Group.List.Basic

/-!
What base 64 is: the bits of the bytes, filled up with zeros, are taken six at a time for the places of letters
in an alphabet, and equals signs fill up the text. A text stands so for one sequence of bytes only.
-/

namespace DotHttp.Text

variable {w v n m filler : Nat} {bytes bytes' : List UInt8} {letters text : List Char}

/-- The lowest bits of a number, from the highest of them to the lowest. -/
def bits : Nat → Nat → List Bool
  | 0, _ => []
  | w + 1, n => bits w (n / 2) ++ [decide (n % 2 = 1)]

def base64Alphabet : List Char :=
  "ABCDEFGHIJKLMNOPQRSTUVWXYZabcdefghijklmnopqrstuvwxyz0123456789+/".toList

def byteBits (b : UInt8) : List Bool :=
  bits 8 b.toNat

def letterBits (c : Char) : List Bool :=
  bits 6 (base64Alphabet.idxOf c)

/-- Letters that have the bits of some bytes, and less than a letter more of zeros. -/
structure Spelled (bytes : List UInt8) (letters : List Char) (filler : Nat) : Prop where
  known : ∀ c ∈ letters, c ∈ base64Alphabet
  short : filler < 6
  agree : letters.flatMap letterBits = bytes.flatMap byteBits ++ List.replicate filler false

/-- A text is base 64 of some bytes: their letters, filled up to a multiple of four characters. -/
def IsBase64 (bytes : List UInt8) (text : List Char) : Prop :=
  ∃ letters filler padding, Spelled bytes letters filler ∧ padding < 4 ∧
    text = letters ++ List.replicate padding '=' ∧ 4 ∣ text.length

@[simp] theorem length_bits (w n : Nat) : (bits w n).length = w := by
  induction w generalizing n with
  | zero => rfl
  | succ w ih => rw [bits, List.length_append, ih, List.length_singleton]

theorem bits_add (w v n : Nat) : bits (w + v) n = bits w (n / 2 ^ v) ++ bits v n := by
  induction v generalizing n with
  | zero => simp [bits]
  | succ v ih => rw [← Nat.add_assoc, bits, bits, ih, Nat.div_div_eq_div_mul, ← Nat.pow_succ', List.append_assoc]

theorem bits_mod (w n : Nat) : bits w (n % 2 ^ w) = bits w n := by
  induction w generalizing n with
  | zero => rfl
  | succ w ih =>
    have low : n % 2 ^ (w + 1) % 2 = n % 2 := Nat.mod_mod_of_dvd n (Nat.pow_succ' ▸ Nat.dvd_mul_right 2 _)
    have high : n % 2 ^ (w + 1) / 2 = n / 2 % 2 ^ w := by rw [Nat.pow_succ', Nat.mod_mul_right_div_self]
    rw [bits, low, high, ih, bits]

theorem bits_mul (w v n : Nat) : bits (w + v) (n * 2 ^ v) = bits w n ++ List.replicate v false := by
  induction v with
  | zero => simp
  | succ v ih =>
    have half : n * 2 ^ (v + 1) / 2 = n * 2 ^ v := by
      rw [Nat.pow_succ, ← Nat.mul_assoc, Nat.mul_div_cancel _ Nat.two_pos]
    have even : n * 2 ^ (v + 1) % 2 = 0 := by
      rw [Nat.pow_succ, ← Nat.mul_assoc, Nat.mul_mod_left]
    rw [← Nat.add_assoc, bits, half, even, ih, List.replicate_succ', List.append_assoc]
    rfl

theorem mod_eq_of_bits (h : bits w n = bits w m) : n % 2 ^ w = m % 2 ^ w := by
  induction w generalizing n m with
  | zero => rw [Nat.pow_zero, Nat.mod_one, Nat.mod_one]
  | succ w ih =>
    obtain ⟨high, low⟩ := List.append_inj' h rfl
    have parity : n % 2 = 1 ↔ m % 2 = 1 := decide_eq_decide.1 (List.singleton_inj.1 low)
    have same : n % 2 = m % 2 := by omega
    rw [Nat.pow_succ', Nat.mod_mul, Nat.mod_mul, ih high, same]

theorem byteBits_injective {a b : UInt8} (h : byteBits a = byteBits b) : a = b := by
  have same := mod_eq_of_bits h
  rw [Nat.mod_eq_of_lt a.toNat_lt, Nat.mod_eq_of_lt b.toNat_lt] at same
  exact UInt8.toNat_inj.1 same

theorem length_flatMap_byteBits (bytes : List UInt8) : (bytes.flatMap byteBits).length = bytes.length * 8 := by
  simp [List.length_flatMap, byteBits]

theorem length_flatMap_letterBits (letters : List Char) :
    (letters.flatMap letterBits).length = letters.length * 6 := by
  simp [List.length_flatMap, letterBits]

theorem flatMap_byteBits_injective (h : bytes.flatMap byteBits = bytes'.flatMap byteBits) : bytes = bytes' := by
  have size := congrArg List.length h
  rw [length_flatMap_byteBits, length_flatMap_byteBits] at size
  induction bytes generalizing bytes' with
  | nil =>
    have none : bytes'.length = 0 := by
      rw [List.length_nil] at size
      omega
    exact (List.eq_nil_of_length_eq_zero none).symm
  | cons a bytes ih =>
    cases bytes' with
    | nil => simp at size
    | cons b bytes' =>
      obtain ⟨first, rest⟩ := List.append_inj h (by simp [byteBits])
      have fewer : bytes.length * 8 = bytes'.length * 8 := by
        rw [List.length_cons, List.length_cons] at size
        omega
      rw [byteBits_injective first, ih rest fewer]

/-- The same letters have the bits of the same bytes: the zeros that fill up are too few for one more byte. -/
theorem Spelled.unique {filler' : Nat} (h : Spelled bytes letters filler) (h' : Spelled bytes' letters filler') :
    bytes = bytes' := by
  have same := h.agree.symm.trans h'.agree
  have size := congrArg List.length same
  rw [List.length_append, List.length_append, length_flatMap_byteBits, length_flatMap_byteBits,
    List.length_replicate, List.length_replicate] at size
  have short := h.short
  have short' := h'.short
  have count : bytes.length = bytes'.length := by omega
  apply flatMap_byteBits_injective
  exact (List.append_inj same (by rw [length_flatMap_byteBits, length_flatMap_byteBits, count])).1

theorem Spelled.takeWhile (h : Spelled bytes letters filler) (padding : Nat) :
    (letters ++ List.replicate padding '=').takeWhile (· != '=') = letters := by
  have apart : ∀ c ∈ base64Alphabet, (c != '=') = true := List.all_eq_true.1 (by decide)
  rw [List.takeWhile_append_of_pos fun c among => apart c (h.known c among)]
  cases padding <;> simp [List.replicate_succ]

theorem IsBase64.unique (h : IsBase64 bytes text) (h' : IsBase64 bytes' text) : bytes = bytes' := by
  obtain ⟨letters, filler, padding, spelled, -, rfl, -⟩ := h
  obtain ⟨letters', filler', padding', spelled', -, same, -⟩ := h'
  have letters_eq : letters = letters' := by
    rw [← spelled.takeWhile padding, same, spelled'.takeWhile]
  exact spelled.unique (letters_eq ▸ spelled')

theorem IsBase64.closed (h : IsBase64 bytes text) : '(' ∉ text := by
  have apart : '(' ∉ base64Alphabet := by decide
  obtain ⟨letters, filler, padding, spelled, -, rfl, -⟩ := h
  rw [List.mem_append]
  rintro (among | padded)
  · exact apart (spelled.known _ among)
  · exact absurd (List.eq_of_mem_replicate padded) (by decide)

theorem base64Digit_known : ∀ n < 64, base64Digit n ∈ base64Alphabet := by
  decide +kernel

theorem idxOf_base64Digit : ∀ n < 64, base64Alphabet.idxOf (base64Digit n) = n := by
  decide +kernel

/-- So many of the last digits of a number. -/
def base64Digits : Nat → Nat → List Char
  | 0, _ => []
  | k + 1, n => base64Digits k (n / 64) ++ [base64Digit (n % 64)]

@[simp] theorem length_base64Digits (k n : Nat) : (base64Digits k n).length = k := by
  induction k generalizing n with
  | zero => rfl
  | succ k ih => rw [base64Digits, List.length_append, ih, List.length_singleton]

theorem mem_base64Digits {k : Nat} {c : Char} (h : c ∈ base64Digits k n) : c ∈ base64Alphabet := by
  induction k generalizing n with
  | zero => cases h
  | succ k ih =>
    rcases List.mem_append.1 h with earlier | last
    · exact ih earlier
    · rw [List.mem_singleton.1 last]
      exact base64Digit_known _ (Nat.mod_lt n (by decide))

theorem flatMap_base64Digits (k n : Nat) : (base64Digits k n).flatMap letterBits = bits (k * 6) n := by
  induction k generalizing n with
  | zero => rw [Nat.zero_mul]; rfl
  | succ k ih =>
    have last : letterBits (base64Digit (n % 64)) = bits 6 n := by
      rw [letterBits, idxOf_base64Digit _ (Nat.mod_lt n (by decide))]
      exact bits_mod 6 n
    rw [base64Digits, List.flatMap_append, ih, List.flatMap_singleton, last, Nat.succ_mul, bits_add (k * 6) 6 n]
    rfl

theorem bits_byte (w n : Nat) (b : UInt8) : bits (w + 8) (n * 256 + b.toNat) = bits w n ++ byteBits b := by
  have small : b.toNat < 256 := b.toNat_lt
  have high : (n * 256 + b.toNat) / 2 ^ 8 = n := by omega
  have low : (n * 256 + b.toNat) % 2 ^ 8 = b.toNat := by omega
  rw [bits_add, high, ← bits_mod 8 (n * 256 + b.toNat), low, byteBits]

theorem base64_one (a : UInt8) :
    base64 [a] = base64Digits 2 (a.toNat * 16) ++ List.replicate 2 '=' := by
  have small : a.toNat < 256 := a.toNat_lt
  have first : a.toNat * 16 / 64 % 64 = a.toNat / 4 := by omega
  have second : a.toNat * 16 % 64 = a.toNat % 4 * 16 := by omega
  simp [base64, base64Digits, first, second, List.replicate]

theorem base64_two (a b : UInt8) :
    base64 [a, b] = base64Digits 3 ((a.toNat * 256 + b.toNat) * 4) ++ List.replicate 1 '=' := by
  have small : a.toNat * 256 + b.toNat < 65536 := by
    have := a.toNat_lt
    have := b.toNat_lt
    omega
  generalize numbered : a.toNat * 256 + b.toNat = n at small
  have first : n * 4 / 64 / 64 % 64 = n / 1024 := by omega
  have second : n * 4 / 64 % 64 = n / 16 % 64 := by omega
  have third : n * 4 % 64 = n % 16 * 4 := by omega
  simp [base64, base64Digits, numbered, first, second, third, List.replicate]

theorem base64_three (a b c : UInt8) (rest : List UInt8) : base64 (a :: b :: c :: rest) =
    base64Digits 4 ((a.toNat * 256 + b.toNat) * 256 + c.toNat) ++ base64 rest := by
  have small : (a.toNat * 256 + b.toNat) * 256 + c.toNat < 16777216 := by
    have := a.toNat_lt
    have := b.toNat_lt
    have := c.toNat_lt
    omega
  generalize numbered : (a.toNat * 256 + b.toNat) * 256 + c.toNat = n at small
  have first : n / 64 / 64 / 64 % 64 = n / 262144 := by omega
  have second : n / 64 / 64 % 64 = n / 4096 % 64 := by omega
  simp [base64, base64Digits, numbered, first, second]

theorem spelled_one (a : UInt8) : Spelled [a] (base64Digits 2 (a.toNat * 16)) 4 := by
  refine ⟨fun _ => mem_base64Digits, by decide, ?_⟩
  rw [flatMap_base64Digits, List.flatMap_singleton]
  exact bits_mul 8 4 a.toNat

theorem spelled_two (a b : UInt8) :
    Spelled [a, b] (base64Digits 3 ((a.toNat * 256 + b.toNat) * 4)) 2 := by
  refine ⟨fun _ => mem_base64Digits, by decide, ?_⟩
  rw [flatMap_base64Digits, List.flatMap_cons, List.flatMap_singleton]
  have both : bits 16 (a.toNat * 256 + b.toNat) = byteBits a ++ byteBits b := bits_byte 8 a.toNat b
  rw [← both]
  exact bits_mul 16 2 _

theorem Spelled.three (h : Spelled bytes letters filler) (a b c : UInt8) : Spelled (a :: b :: c :: bytes)
    (base64Digits 4 ((a.toNat * 256 + b.toNat) * 256 + c.toNat) ++ letters) filler := by
  refine ⟨?_, h.short, ?_⟩
  · intro d among
    exact (List.mem_append.1 among).elim mem_base64Digits (h.known d)
  · have all : bits (4 * 6) ((a.toNat * 256 + b.toNat) * 256 + c.toNat) = byteBits a ++ byteBits b ++ byteBits c := by
      rw [bits_byte 16, bits_byte 8]
      rfl
    rw [List.flatMap_append, flatMap_base64Digits, all, h.agree]
    simp

theorem isBase64_base64 (bytes : List UInt8) : IsBase64 bytes (base64 bytes) := by
  fun_induction base64 bytes with
  | case1 => exact ⟨[], 0, 0, ⟨by simp, by decide, rfl⟩, by decide, rfl, by decide⟩
  | case2 a =>
    have text := base64_one a
    refine ⟨_, 4, 2, spelled_one a, by decide, text, ?_⟩
    simp
  | case3 a b =>
    have text := base64_two a b
    refine ⟨_, 2, 1, spelled_two a b, by decide, text, ?_⟩
    simp
  | case4 a b c rest n ih =>
    obtain ⟨letters, filler, padding, spelled, short, text, whole⟩ := ih
    refine ⟨_, filler, padding, spelled.three a b c, short, ?_, ?_⟩
    · rw [List.append_assoc, ← text]
      exact base64_three a b c rest
    · simp only [List.length_cons]
      omega

end DotHttp.Text
