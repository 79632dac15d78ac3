import Mathlib.Data.Int.Notation
import Mathlib.Tactic.Common

/-! Base64 with padding. Three bytes are four characters of six bits each; one or
two bytes at the end are padded with `=`. The decoder wants padding at the end
only and no bits left over. It undoes the encoder on strings of any length. -/

namespace Kit.Base64

/-- The character of a value below 64. -/
def char (n : ℕ) : Char :=
  if n < 26 then Char.ofNat (n + 65)
  else if n < 52 then Char.ofNat (n + 71)
  else if n < 62 then Char.ofNat (n - 4)
  else if n = 62 then '+'
  else '/'

/-- The value of a character of the alphabet. -/
def sextet (c : Char) : Option ℕ :=
  if c.isUpper then some (c.toNat - 65)
  else if c.isLower then some (c.toNat - 71)
  else if c.isDigit then some (c.toNat + 4)
  else if c = '+' then some 62
  else if c = '/' then some 63
  else none

/-- A character of the alphabet or padding. -/
def IsBase64 (c : Char) : Prop := (sextet c).isSome = true ∨ c = '='

instance (c : Char) : Decidable (IsBase64 c) := inferInstanceAs (Decidable (_ ∨ _))

def encode : List ℕ → List Char
  | [] => []
  | [a] => [char (a / 4), char (a % 4 * 16), '=', '=']
  | [a, b] => [char (a / 4), char (a % 4 * 16 + b / 16), char (b % 16 * 4), '=']
  | a :: b :: c :: rest =>
    char (a / 4) :: char (a % 4 * 16 + b / 16) :: char (b % 16 * 4 + c / 64) :: char (c % 64) :: encode rest

/-- The last group, if it is padded. -/
def decodePadded (w x y z : Char) : Option (List ℕ) :=
  if z = '=' then do
    let p ← sextet w
    let q ← sextet x
    if y = '=' then
      if q % 16 = 0 then some [p * 4 + q / 16] else none
    else
      let r ← sextet y
      if r % 4 = 0 then some [p * 4 + q / 16, q % 16 * 16 + r / 4] else none
  else none

def decodeGroup (w x y z : Char) : Option (List ℕ) := do
  let p ← sextet w
  let q ← sextet x
  let r ← sextet y
  let s ← sextet z
  return [p * 4 + q / 16, q % 16 * 16 + r / 4, r % 4 * 64 + s]

def decode : List Char → Option (List ℕ)
  | [] => some []
  | [w, x, y, z] => (decodePadded w x y z).or (decodeGroup w x y z)
  | w :: x :: y :: z :: rest => do
    let bytes ← decodeGroup w x y z
    return bytes ++ (← decode rest)
  | _ => none

/-! ### One group -/

theorem sextet_char {n : ℕ} (h : n < 64) : sextet (char n) = some n := by
  have hall : ∀ n < 64, sextet (char n) = some n := by decide
  exact hall n h

theorem char_ne_padding {n : ℕ} (h : n < 64) : char n ≠ '=' := by
  intro hsame
  have hvalue := sextet_char h
  rw [hsame] at hvalue
  cases hvalue

section Bytes

variable {a b c : ℕ} (ha : a < 256) (hb : b < 256) (hc : c < 256)
include ha

theorem decodePadded_one :
    decodePadded (char (a / 4)) (char (a % 4 * 16)) '=' '=' = some [a] := by
  have hfirst : a / 4 < 64 := by omega
  have hsecond : a % 4 * 16 < 64 := by omega
  simp [decodePadded, sextet_char hfirst, sextet_char hsecond]
  omega

include hb

theorem decodePadded_two :
    decodePadded (char (a / 4)) (char (a % 4 * 16 + b / 16)) (char (b % 16 * 4)) '=' = some [a, b] := by
  have hfirst : a / 4 < 64 := by omega
  have hsecond : a % 4 * 16 + b / 16 < 64 := by omega
  have hthird : b % 16 * 4 < 64 := by omega
  simp [decodePadded, sextet_char hfirst, sextet_char hsecond, sextet_char hthird,
    char_ne_padding hthird]
  omega

include hc

theorem decodeGroup_three :
    decodeGroup (char (a / 4)) (char (a % 4 * 16 + b / 16)) (char (b % 16 * 4 + c / 64)) (char (c % 64)) =
      some [a, b, c] := by
  have hfirst : a / 4 < 64 := by omega
  have hsecond : a % 4 * 16 + b / 16 < 64 := by omega
  have hthird : b % 16 * 4 + c / 64 < 64 := by omega
  have hfourth : c % 64 < 64 := by omega
  simp [decodeGroup, sextet_char hfirst, sextet_char hsecond, sextet_char hthird, sextet_char hfourth]
  omega

end Bytes

/-! ### Strings of any length -/

theorem decode_encode {bytes : List ℕ} (h : ∀ b ∈ bytes, b < 256) : decode (encode bytes) = some bytes := by
  induction bytes using encode.induct with
  | case1 => rfl
  | case2 a => simp [encode, decode, decodePadded_one (h a (by simp))]
  | case3 a b => simp [encode, decode, decodePadded_two (h a (by simp)) (h b (by simp))]
  | case4 a b c rest ih =>
    have hgroup := decodeGroup_three (h a (by simp)) (h b (by simp)) (h c (by simp))
    have hrest := ih fun d hd => h d (by simp [hd])
    have hpadded (w x y : Char) : decodePadded w x y (char (c % 64)) = none := by
      have hfourth : c % 64 < 64 := by omega
      exact if_neg (char_ne_padding hfourth)
    cases henc : encode rest with
    | nil =>
      rw [henc] at hrest
      cases hrest
      simp [encode, decode, hpadded, hgroup]
    | cons d rest' =>
      rw [henc] at hrest
      simp [encode, decode, hgroup, henc, hrest]

theorem isBase64_char {n : ℕ} (h : n < 64) : IsBase64 (char n) := by
  left
  rw [sextet_char h]
  rfl

theorem isBase64_of_mem_encode {bytes : List ℕ} (h : ∀ b ∈ bytes, b < 256) {c : Char}
    (hc : c ∈ encode bytes) : IsBase64 c := by
  have hpadding : IsBase64 '=' := .inr rfl
  induction bytes using encode.induct with
  | case1 => cases hc
  | case2 a =>
    have ha := h a (by simp)
    simp only [encode, List.mem_cons, List.not_mem_nil, or_false] at hc
    rcases hc with rfl | rfl | rfl | rfl
    · exact isBase64_char (by omega)
    · exact isBase64_char (by omega)
    · exact hpadding
    · exact hpadding
  | case3 a b =>
    have ha := h a (by simp)
    have hb := h b (by simp)
    simp only [encode, List.mem_cons, List.not_mem_nil, or_false] at hc
    rcases hc with rfl | rfl | rfl | rfl
    · exact isBase64_char (by omega)
    · exact isBase64_char (by omega)
    · exact isBase64_char (by omega)
    · exact hpadding
  | case4 a b d rest ih =>
    have ha := h a (by simp)
    have hb := h b (by simp)
    have hd := h d (by simp)
    simp only [encode, List.mem_cons] at hc
    rcases hc with rfl | rfl | rfl | rfl | hc
    · exact isBase64_char (by omega)
    · exact isBase64_char (by omega)
    · exact isBase64_char (by omega)
    · exact isBase64_char (by omega)
    · exact ih (fun e he => h e (by simp [he])) hc

theorem encode_ne_nil {bytes : List ℕ} (h : bytes ≠ []) : encode bytes ≠ [] := by
  cases bytes using encode.induct with
  | case1 => exact absurd rfl h
  | case2 a => exact List.cons_ne_nil _ _
  | case3 a b => exact List.cons_ne_nil _ _
  | case4 a b c rest => exact List.cons_ne_nil _ _

end Kit.Base64
