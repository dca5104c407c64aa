/-
# NestAmqp.Lib.Base64 — base64, written strictly and read leniently.

Three bytes are four digits of six bits; a last group of one or two bytes is two or three digits and the
padding.  The reader stops at the first `=`, takes the digits of either alphabet before it, passes over every
other character, and drops what is left over of a group that does not fill a byte: it reads back what was
written, and much that was not.
-/
import Mathlib.Data.List.Basic

namespace NestAmqp.Lib.Base64

/-! ## Digits -/

def alphabet : List Char :=
  "ABCDEFGHIJKLMNOPQRSTUVWXYZabcdefghijklmnopqrstuvwxyz0123456789+/".toList

/-- The digit of a six-bit number. -/
def digit (n : Nat) : Char := alphabet.getD n '='

/-- The number of a digit, with `-` and `_` for the last two as well. -/
def value (c : Char) : Option Nat :=
  if 'A' ≤ c ∧ c ≤ 'Z' then some (c.toNat - 65)
  else if 'a' ≤ c ∧ c ≤ 'z' then some (c.toNat - 71)
  else if '0' ≤ c ∧ c ≤ '9' then some (c.toNat + 4)
  else if c = '+' ∨ c = '-' then some 62
  else if c = '/' ∨ c = '_' then some 63
  else none

theorem value_digit {n : Nat} (h : n < 64) : value (digit n) = some n := by
  have hall : ∀ n : Fin 64, value (digit n) = some n.val := by decide +kernel
  exact hall ⟨n, h⟩

/-- No digit is a blank. -/
theorem digit_ne_blank (n : Nat) : digit n ≠ ' ' := by
  by_cases h : n < 64
  · have hall : ∀ n : Fin 64, digit n ≠ ' ' := by decide +kernel
    exact hall ⟨n, h⟩
  · have hlong : alphabet.length ≤ n := by
      have hlength : alphabet.length = 64 := by decide +kernel
      omega
    have hdigit : digit n = '=' := by simp [digit, List.getD, List.getElem?_eq_none hlong]
    rw [hdigit]
    decide

/-! ## Groups -/

/-- Bytes as numbers of six bits. -/
def sextets : List UInt8 → List Nat
  | a :: b :: c :: rest =>
      a.toNat / 4 :: (a.toNat % 4 * 16 + b.toNat / 16) :: (b.toNat % 16 * 4 + c.toNat / 64) ::
        c.toNat % 64 :: sextets rest
  | [a, b] => [a.toNat / 4, a.toNat % 4 * 16 + b.toNat / 16, b.toNat % 16 * 4]
  | [a] => [a.toNat / 4, a.toNat % 4 * 16]
  | [] => []

/-- Numbers of six bits as bytes; what does not fill one is dropped. -/
def bytes : List Nat → List UInt8
  | p :: q :: r :: s :: rest =>
      .ofNat (p * 4 + q / 16) :: .ofNat (q % 16 * 16 + r / 4) :: .ofNat (r % 4 * 64 + s) :: bytes rest
  | [p, q, r] => [.ofNat (p * 4 + q / 16), .ofNat (q % 16 * 16 + r / 4)]
  | [p, q] => [.ofNat (p * 4 + q / 16)]
  | [_] | [] => []

theorem sextets_lt (bs : List UInt8) : ∀ n ∈ sextets bs, n < 64 := by
  fun_induction sextets bs with
  | case1 a b c rest ih =>
      have ha := a.toNat_lt
      have hb := b.toNat_lt
      have hc := c.toNat_lt
      simp only [List.forall_mem_cons]
      exact ⟨by omega, by omega, by omega, by omega, ih⟩
  | case2 a b =>
      have ha := a.toNat_lt
      have hb := b.toNat_lt
      simp only [List.forall_mem_cons]
      exact ⟨by omega, by omega, by omega, nofun⟩
  | case3 a =>
      have ha := a.toNat_lt
      simp only [List.forall_mem_cons]
      exact ⟨by omega, by omega, nofun⟩
  | case4 => exact nofun

/-- A byte is put together again from its number. -/
theorem ofNat_eq_of_toNat {n : Nat} {b : UInt8} (h : n = b.toNat) : UInt8.ofNat n = b := by
  rw [h]
  exact UInt8.ofNat_toNat

theorem bytes_sextets (bs : List UInt8) : bytes (sextets bs) = bs := by
  fun_induction sextets bs with
  | case1 a b c rest ih =>
      have hb := b.toNat_lt
      have hc := c.toNat_lt
      unfold bytes
      rw [ih, @ofNat_eq_of_toNat _ a (by omega), @ofNat_eq_of_toNat _ b (by omega),
        @ofNat_eq_of_toNat _ c (by omega)]
  | case2 a b =>
      have hb := b.toNat_lt
      unfold bytes
      rw [@ofNat_eq_of_toNat _ a (by omega), @ofNat_eq_of_toNat _ b (by omega)]
  | case3 a =>
      unfold bytes
      rw [@ofNat_eq_of_toNat _ a (by omega)]
  | case4 => rfl

/-! ## Texts -/

/-- Digits, and `=` up to a whole group. -/
def encode (bs : List UInt8) : List Char :=
  (sextets bs).map digit ++ List.replicate ((3 - bs.length % 3) % 3) '='

/-- The digits of a text up to its first `=`, in whichever alphabet and whatever lies between. -/
def decode (text : List Char) : List UInt8 := bytes ((text.takeWhile (· ≠ '=')).filterMap value)

/-- **What is written is read back.** -/
theorem decode_encode (bs : List UInt8) : decode (encode bs) = bs := by
  have hdigits : ((sextets bs).map digit).filterMap value = sextets bs := by
    rw [List.filterMap_map]
    refine (List.filterMap_congr fun n hn => ?_).trans (List.filterMap_some)
    exact value_digit (sextets_lt bs n hn)
  have hplain : ∀ c ∈ (sextets bs).map digit, decide (c ≠ '=') = true := by
    rintro c hc
    obtain ⟨n, hn, rfl⟩ := List.mem_map.mp hc
    refine decide_eq_true fun heq => ?_
    have hvalue := value_digit (sextets_lt bs n hn)
    rw [heq] at hvalue
    cases hvalue
  have hpadding : ∀ k, (List.replicate k '=').takeWhile (fun c => decide (c ≠ '=')) = [] := by
    intro k
    cases k with
    | zero => rfl
    | succ k => rfl
  unfold decode encode
  rw [List.takeWhile_append_of_pos hplain, hpadding, List.append_nil, hdigits, bytes_sextets]

theorem blank_not_mem_encode (bs : List UInt8) : ' ' ∉ encode bs := by
  unfold encode
  rw [List.mem_append, List.mem_map]
  rintro (⟨n, -, hn⟩ | h)
  · exact digit_ne_blank n hn
  · exact absurd (List.eq_of_mem_replicate h) (by decide)

end NestAmqp.Lib.Base64
