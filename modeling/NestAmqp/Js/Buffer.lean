/-
# NestAmqp.Js.Buffer — texts and bytes, as Node's `Buffer` turns one into the other.

`Buffer.from(s, 'base64')` reads the base64 digits of either alphabet and passes over the rest;
`toString('ascii')` drops the highest bit of every byte.  A text of seven-bit characters comes out of both as
it went in, and nothing but such texts does.
-/
import NestAmqp.Js.Value
import NestAmqp.Lib.Base64

namespace NestAmqp.Js.Buffer

open NestAmqp.Lib

/-- `Buffer.from(s, 'utf8')`. -/
def utf8 (s : String) : List UInt8 := s.toList.flatMap String.utf8EncodeChar

/-- `Buffer.from(s, 'base64')`. -/
def ofBase64 (s : String) : List UInt8 := Base64.decode s.toList

/-- `bytes.toString('base64')`. -/
def toBase64 (bytes : List UInt8) : String := String.ofList (Base64.encode bytes)

/-- A byte without its highest bit. -/
def asciiChar (b : UInt8) : Char := Char.ofNat (b.toNat % 128)

/-- `bytes.toString('ascii')`. -/
def toAscii (bytes : List UInt8) : String := String.ofList (bytes.map asciiChar)

@[simp] theorem ofBase64_toBase64 (bytes : List UInt8) : ofBase64 (toBase64 bytes) = bytes := by
  unfold ofBase64 toBase64
  rw [String.toList_ofList, Base64.decode_encode]

theorem utf8_append (s t : String) : utf8 (s ++ t) = utf8 s ++ utf8 t := by
  unfold utf8
  rw [String.toList_append, List.flatMap_append]

theorem toAscii_append (bs cs : List UInt8) : toAscii (bs ++ cs) = toAscii bs ++ toAscii cs := by
  unfold toAscii
  rw [List.map_append, String.ofList_append]

/-! ## Characters -/

theorem utf8EncodeChar_of_lt {c : Char} (h : c.toNat < 128) :
    String.utf8EncodeChar c = [UInt8.ofNat c.toNat] := by
  unfold String.utf8EncodeChar
  exact if_pos (Nat.le_of_lt_succ h)

/-- Every byte of another character has its highest bit. -/
theorem le_of_mem_utf8EncodeChar {c : Char} (h : ¬ c.toNat < 128) {b : UInt8}
    (hb : b ∈ String.utf8EncodeChar c) : 128 ≤ b.toNat := by
  have hbyte : ∀ n k : Nat, 128 ≤ k → n + k < 256 → 128 ≤ (UInt8.ofNat (n + k)).toNat := by
    intro n k hk hlt
    rw [UInt8.toNat_ofNat', Nat.mod_eq_of_lt hlt]
    omega
  unfold String.utf8EncodeChar at hb
  dsimp only at hb
  have hlarge : ¬ c.val.toNat ≤ 127 := fun hle => h (Nat.lt_succ_of_le hle)
  rw [if_neg hlarge] at hb
  split at hb
  · rcases List.mem_pair.mp hb with rfl | rfl <;> exact hbyte _ _ (by omega) (by omega)
  · split at hb
    · simp only [List.mem_cons, List.not_mem_nil, or_false] at hb
      rcases hb with rfl | rfl | rfl <;> exact hbyte _ _ (by omega) (by omega)
    · simp only [List.mem_cons, List.not_mem_nil, or_false] at hb
      rcases hb with rfl | rfl | rfl | rfl <;> exact hbyte _ _ (by omega) (by omega)

theorem toNat_asciiChar (b : UInt8) : (asciiChar b).toNat = b.toNat % 128 := by
  have hvalid : (b.toNat % 128).isValidChar := .inl (by omega)
  unfold asciiChar Char.ofNat
  rw [dif_pos hvalid]
  rfl

theorem asciiChar_ofNat {c : Char} (h : c.toNat < 128) : asciiChar (UInt8.ofNat c.toNat) = c := by
  unfold asciiChar
  rw [UInt8.toNat_ofNat', Nat.mod_eq_of_lt (by omega : c.toNat < 2 ^ 8), Nat.mod_eq_of_lt h,
    Char.ofNat_toNat]

theorem ofNat_asciiChar {b : UInt8} (h : b.toNat < 128) : UInt8.ofNat (asciiChar b).toNat = b := by
  rw [toNat_asciiChar, Nat.mod_eq_of_lt h, UInt8.ofNat_toNat]

/-! ## Seven bits -/

/-- A text of seven-bit characters. -/
def SevenBit (s : String) : Prop := ∀ c ∈ s.toList, c.toNat < 128

instance (s : String) : Decidable (SevenBit s) :=
  List.decidableBAll (fun c : Char => c.toNat < 128) s.toList

/-- The parts of a seven-bit text are seven-bit. -/
theorem SevenBit.of_mem_split {s part : String} {sep : Char} (h : SevenBit s) (hpart : part ∈ split s sep) :
    SevenBit part := fun c hc => h c (mem_of_mem_split hpart hc)

theorem sevenBit_toAscii (bytes : List UInt8) : SevenBit (toAscii bytes) := by
  unfold SevenBit toAscii
  rw [String.toList_ofList]
  intro c hc
  obtain ⟨b, -, rfl⟩ := List.mem_map.mp hc
  rw [toNat_asciiChar]
  exact Nat.mod_lt _ (by decide)

theorem toAscii_utf8 {s : String} (h : SevenBit s) : toAscii (utf8 s) = s := by
  unfold toAscii utf8
  rw [List.map_flatMap]
  have hchars : ∀ cs : List Char, (∀ c ∈ cs, c.toNat < 128) →
      (cs.flatMap fun c => (String.utf8EncodeChar c).map asciiChar) = cs := by
    intro cs
    induction cs with
    | nil => exact fun _ => rfl
    | cons c cs ih =>
        intro hcs
        obtain ⟨hc, hcs⟩ := List.forall_mem_cons.mp hcs
        rw [List.flatMap_cons, ih hcs, utf8EncodeChar_of_lt hc]
        show [asciiChar (UInt8.ofNat c.toNat)] ++ cs = c :: cs
        rw [asciiChar_ofNat hc, List.singleton_append]
  rw [hchars s.toList h, String.ofList_toList]

theorem utf8_toAscii {bytes : List UInt8} (h : ∀ b ∈ bytes, b.toNat < 128) :
    utf8 (toAscii bytes) = bytes := by
  unfold toAscii utf8
  rw [String.toList_ofList, List.flatMap_map]
  induction bytes with
  | nil => rfl
  | cons b bytes ih =>
      obtain ⟨hb, hbytes⟩ := List.forall_mem_cons.mp h
      have hlt : (asciiChar b).toNat < 128 := by
        rw [toNat_asciiChar]
        exact Nat.mod_lt _ (by decide)
      rw [List.flatMap_cons, ih hbytes, utf8EncodeChar_of_lt hlt, ofNat_asciiChar hb, List.singleton_append]

/-- A seven-bit byte of a text is one of its characters. -/
theorem ofNat_mem_utf8_iff {s : String} {c : Char} (hc : c.toNat < 128) :
    UInt8.ofNat c.toNat ∈ utf8 s ↔ c ∈ s.toList := by
  unfold utf8
  rw [List.mem_flatMap]
  have hbyte : (UInt8.ofNat c.toNat).toNat = c.toNat := by
    rw [UInt8.toNat_ofNat', Nat.mod_eq_of_lt (by omega)]
  constructor
  · rintro ⟨d, hd, hmem⟩
    by_cases hsmall : d.toNat < 128
    · rw [utf8EncodeChar_of_lt hsmall, List.mem_singleton] at hmem
      have hchar := congrArg asciiChar hmem
      rw [asciiChar_ofNat hc, asciiChar_ofNat hsmall] at hchar
      rw [hchar]
      exact hd
    · have hle := le_of_mem_utf8EncodeChar hsmall hmem
      omega
  · intro hmem
    exact ⟨c, hmem, by rw [utf8EncodeChar_of_lt hc]; exact .head _⟩

/-- The bytes of a text are seven-bit when its characters are. -/
theorem SevenBit.utf8_lt {s : String} (h : SevenBit s) : ∀ b ∈ utf8 s, b.toNat < 128 := by
  intro b hb
  obtain ⟨c, hc, hmem⟩ := List.mem_flatMap.mp hb
  have hlt := h c hc
  rw [utf8EncodeChar_of_lt hlt, List.mem_singleton] at hmem
  rw [hmem, UInt8.toNat_ofNat', Nat.mod_eq_of_lt (by omega)]
  exact hlt

end NestAmqp.Js.Buffer
