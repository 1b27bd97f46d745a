import Mathlib.Data.Nat.Digits.Defs

/-!
# Numerals

A numeral is what C calls an integer constant, with an optional sign: decimal, octal after
a leading zero, hexadecimal after `0x`.  The C library reads the longest numeral at the
start of a text.  Where the whole text is a numeral that fits, it reads its value.
-/

namespace QnxVirtio
namespace Foundation

/-!
## Digits
-/

/-- The value of a digit; letters of both cases stand for the digits from ten on. -/
def digitValue (c : Char) : Option Nat :=
  if '0' <= c ∧ c <= '9' then
    some (c.toNat - '0'.toNat)
  else if 'a' <= c ∧ c <= 'z' then
    some (c.toNat - 'a'.toNat + 10)
  else if 'A' <= c ∧ c <= 'Z' then
    some (c.toNat - 'A'.toNat + 10)
  else
    none

/-- The value of a digit of a base. -/
def digitOf (base : Nat) (c : Char) : Option Nat :=
  (digitValue c).filter (fun d => decide (d < base))

/-- The number that a text of digits writes, the most significant digit first. -/
def digitsValue (base : Nat) (text : List Char) : Option Nat :=
  if text = [] then
    none
  else
    (text.mapM (digitOf base)).map fun digits => Nat.ofDigits base digits.reverse

/-!
## Numerals
-/

/-- An integer constant. -/
def unsignedNumeral : List Char -> Option Nat
  | '0' :: 'x' :: text => digitsValue 16 text
  | '0' :: 'X' :: text => digitsValue 16 text
  | '0' :: text => digitsValue 8 ('0' :: text)
  | text => digitsValue 10 text

/-- The white space of the C locale. -/
def isSpace (c : Char) : Bool :=
  c == ' ' || ('\t' <= c && c <= '\r')

/-- The value of a text that is a numeral: white space, a sign and an integer constant. -/
def numeral (text : List Char) : Option Int :=
  match text.dropWhile isSpace with
  | '-' :: rest => (unsignedNumeral rest).map fun n : Nat => -(n : Int)
  | '+' :: rest => (unsignedNumeral rest).map fun n : Nat => (n : Int)
  | rest => (unsignedNumeral rest).map fun n : Nat => (n : Int)

/-!
## The C library
-/

/-- The digits at the start of a text are read, up to the first other character. -/
def scanDigits (base : Nat) : List Char -> Nat -> Nat
  | [], value => value
  | c :: text, value =>
      match digitOf base c with
      | some d => scanDigits base text (value * base + d)
      | none => value

/-- Base 0: the base follows from the text.  A `0x` without a digit after it is a zero. -/
def scanUnsigned (text : List Char) : Nat :=
  match text with
  | '0' :: x :: c :: rest =>
      if (x = 'x' ∨ x = 'X') ∧ (digitOf 16 c).isSome then
        scanDigits 16 (c :: rest) 0
      else
        scanDigits 8 text 0
  | '0' :: _ => scanDigits 8 text 0
  | _ => scanDigits 10 text 0

def ULONG_MAX : UInt64 := 0xFFFFFFFFFFFFFFFF

/-- A value that does not fit is read as the largest one, with either sign. -/
def unsignedLong (negative : Bool) (value : Nat) : UInt64 :=
  if 2 ^ 64 <= value then
    ULONG_MAX
  else if negative then
    -(UInt64.ofNat value)
  else
    UInt64.ofNat value

/-- `strtoul(text, NULL, 0)` with an `unsigned long` of 64 bits. -/
def strtoul (text : List Char) : UInt64 :=
  match text.dropWhile isSpace with
  | '-' :: rest => unsignedLong true (scanUnsigned rest)
  | '+' :: rest => unsignedLong false (scanUnsigned rest)
  | rest => unsignedLong false (scanUnsigned rest)

/-- `strtoull(text, NULL, 0)`; an `unsigned long long` has the same 64 bits. -/
def strtoull (text : List Char) : UInt64 :=
  strtoul text

/-!
## Reading a numeral
-/

theorem scanDigits_of_mapM {base : Nat} {text : List Char} {digits : List Nat}
    (h : text.mapM (digitOf base) = some digits) (value : Nat) :
    scanDigits base text value =
      value * base ^ digits.length + Nat.ofDigits base digits.reverse := by
  induction text generalizing digits value with
  | nil =>
      cases h
      simp [scanDigits]
  | cons c text ih =>
      rw [List.mapM_cons] at h
      cases hc : digitOf base c with
      | none =>
          rw [hc] at h
          cases h
      | some d =>
          rw [hc] at h
          cases hrest : text.mapM (digitOf base) with
          | none =>
              rw [hrest] at h
              cases h
          | some rest =>
              rw [hrest] at h
              cases h
              simp only [scanDigits, hc]
              rw [ih hrest, List.reverse_cons, Nat.ofDigits_append, List.length_reverse,
                Nat.ofDigits_singleton, List.length_cons, pow_succ]
              ring

theorem scanDigits_of_digitsValue {base : Nat} {text : List Char} {n : Nat}
    (h : digitsValue base text = some n) : scanDigits base text 0 = n := by
  unfold digitsValue at h
  split at h
  · cases h
  · rw [Option.map_eq_some_iff] at h
    rcases h with ⟨digits, hdigits, rfl⟩
    rw [scanDigits_of_mapM hdigits]
    simp

theorem digitOf_isSome_of_digitsValue {base : Nat} {c : Char} {text : List Char} {n : Nat}
    (h : digitsValue base (c :: text) = some n) : (digitOf base c).isSome := by
  cases hc : digitOf base c with
  | some d => rfl
  | none =>
      simp [digitsValue, hc] at h

theorem scanUnsigned_of_unsignedNumeral {text : List Char} {n : Nat}
    (h : unsignedNumeral text = some n) : scanUnsigned text = n := by
  have hhex : forall {x : Char} {rest : List Char}, x = 'x' ∨ x = 'X' ->
      digitsValue 16 rest = some n -> scanUnsigned ('0' :: x :: rest) = n := by
    intro x rest hx hrest
    cases rest with
    | nil => cases hrest
    | cons c rest =>
        rw [scanUnsigned, if_pos ⟨hx, digitOf_isSome_of_digitsValue hrest⟩]
        exact scanDigits_of_digitsValue hrest
  unfold unsignedNumeral at h
  split at h
  · exact hhex (Or.inl rfl) h
  · exact hhex (Or.inr rfl) h
  · rename_i rest hx hX
    unfold scanUnsigned
    split
    · rename_i x c tail heq
      rw [if_neg]
      · exact scanDigits_of_digitsValue h
      · rintro ⟨rfl | rfl, _⟩
        · exact hx _ (List.cons.inj heq).2
        · exact hX _ (List.cons.inj heq).2
    · exact scanDigits_of_digitsValue h
    · rename_i hzero
      exact absurd rfl (hzero rest)
  · rename_i hx hX hzero
    unfold scanUnsigned
    split
    · exact absurd rfl (hzero _)
    · exact absurd rfl (hzero _)
    · exact scanDigits_of_digitsValue h

theorem unsignedLong_of_lt {value : Nat} (h : value < 2 ^ 64) :
    unsignedLong false value = UInt64.ofNat value := by
  rw [unsignedLong, if_neg (Nat.not_le.mpr h)]
  rfl

theorem strtoul_of_numeral {text : List Char} {v : Int} (h : numeral text = some v)
    (hpos : 0 <= v) (hfit : v < 2 ^ 64) : strtoul text = UInt64.ofNat v.toNat := by
  have hplus : forall {rest : List Char},
      ((unsignedNumeral rest).map fun n : Nat => (n : Int)) = some v ->
      unsignedLong false (scanUnsigned rest) = UInt64.ofNat v.toNat := by
    intro rest hrest
    rw [Option.map_eq_some_iff] at hrest
    rcases hrest with ⟨n, hn, rfl⟩
    rw [scanUnsigned_of_unsignedNumeral hn]
    exact unsignedLong_of_lt (by omega)
  unfold numeral at h
  unfold strtoul
  split at h
  · rename_i rest _
    rw [Option.map_eq_some_iff] at h
    rcases h with ⟨n, hn, rfl⟩
    -- the only numeral with a minus that is in the range is zero
    have hzero : n = 0 := by
      omega
    subst hzero
    rw [scanUnsigned_of_unsignedNumeral hn]
    rfl
  · exact hplus h
  · exact hplus h

end Foundation
end QnxVirtio
