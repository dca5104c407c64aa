/-
# NestAmqp.Js.Json — the text of JSON's atoms.

`JSON.stringify` of a string and of a number.  Both are closed texts: whatever the string holds, its
text can stand between commas and brackets without being mistaken for them.
-/
import NestAmqp.Js.Value
import NestAmqp.Lib.Nesting

namespace NestAmqp.Js

open NestAmqp.Lib.Nesting

/-! ## Strings -/

/-- One character inside a JSON string. -/
def escapeChar (c : Char) : List Char :=
  if c = '"' then ['\\', '"']
  else if c = '\\' then ['\\', '\\']
  else if c = '\n' then ['\\', 'n']
  else if c = '\r' then ['\\', 'r']
  else if c = '\t' then ['\\', 't']
  else if c.toNat = 8 then ['\\', 'b']
  else if c.toNat = 12 then ['\\', 'f']
  else if c.toNat < 32 then
    ['\\', 'u', '0', '0', Nat.digitChar (c.toNat / 16), Nat.digitChar (c.toNat % 16)]
  else [c]

/-- `JSON.stringify(s)`. -/
def quote (s : String) : String := String.ofList ('"' :: (s.toList.flatMap escapeChar ++ ['"']))

theorem quotable_digitChar {n : Nat} (h : n < 16) : Quotable [Nat.digitChar n] := by
  have hplain : ∀ n < 16, Nat.digitChar n ≠ '"' ∧ Nat.digitChar n ≠ '\\' := by decide
  exact quotable_char (hplain n h).1 (hplain n h).2

theorem quotable_escapeChar (c : Char) : Quotable (escapeChar c) := by
  unfold escapeChar
  split_ifs with hquote hslash _ _ _ _ _ hcontrol
  any_goals exact quotable_escape _
  · have hzero : Quotable ['0'] := quotable_char (by decide) (by decide)
    have hhigh : Quotable [Nat.digitChar (c.toNat / 16)] := quotable_digitChar (by omega)
    have hlow : Quotable [Nat.digitChar (c.toNat % 16)] := quotable_digitChar (by omega)
    exact (quotable_escape 'u').append (hzero.append (hzero.append (hhigh.append hlow)))
  · exact quotable_char hquote hslash

theorem closed_quote (s : String) : Closed (quote s).toList := by
  unfold quote
  rw [String.toList_ofList]
  apply Quotable.closed
  induction s.toList with
  | nil => exact quotable_nil
  | cons c cs ih => exact (quotable_escapeChar c).append ih

/-- The value of a hexadecimal digit. -/
def hexValue (digit : Char) : Nat := "0123456789abcdef".toList.idxOf digit

theorem hexValue_digitChar : ∀ n < 16, hexValue (Nat.digitChar n) = n := by decide

/-- The character behind a backslash, where it stands alone. -/
def unescapeLetter (c : Char) : Char :=
  if c = 'n' then '\n'
  else if c = 'r' then '\r'
  else if c = 't' then '\t'
  else if c = 'b' then Char.ofNat 8
  else if c = 'f' then Char.ofNat 12
  else c

/-- One character of a JSON string read back, `none` at its end. -/
def unescape : List Char → Option (Char × List Char)
  | '\\' :: 'u' :: _ :: _ :: high :: low :: rest =>
      some (Char.ofNat (hexValue high * 16 + hexValue low), rest)
  | '\\' :: c :: rest => some (unescapeLetter c, rest)
  | '"' :: _ => none
  | c :: rest => some (c, rest)
  | [] => none

/-- **A character is read back from its escape**, whatever follows. -/
theorem unescape_escapeChar (c : Char) (rest : List Char) : unescape (escapeChar c ++ rest) = some (c, rest) := by
  unfold escapeChar
  split_ifs with hquote hslash hnewline hreturn htab hback hfeed hcontrol
  · rw [hquote]; rfl
  · rw [hslash]; rfl
  · rw [hnewline]; rfl
  · rw [hreturn]; rfl
  · rw [htab]; rfl
  · rw [← Char.ofNat_toNat c, hback]; rfl
  · rw [← Char.ofNat_toNat c, hfeed]; rfl
  · show some (Char.ofNat (hexValue (Nat.digitChar (c.toNat / 16)) * 16 +
      hexValue (Nat.digitChar (c.toNat % 16))), rest) = _
    rw [hexValue_digitChar _ (by omega), hexValue_digitChar _ (by omega), Nat.div_add_mod', Char.ofNat_toNat]
  · rw [List.singleton_append]
    unfold unescape
    split
    · rename_i heq
      exact absurd (List.cons.inj heq).1 hslash
    · rename_i heq
      exact absurd (List.cons.inj heq).1 hslash
    · rename_i heq
      exact absurd (List.cons.inj heq).1 hquote
    · rename_i heq
      obtain ⟨rfl, rfl⟩ := List.cons.inj heq
      rfl
    · rename_i heq
      cases heq

/-- Where an escaped text ends is told from the text. -/
theorem flatMap_escapeChar_append_inj {s t u v : List Char}
    (h : s.flatMap escapeChar ++ '"' :: u = t.flatMap escapeChar ++ '"' :: v) : s = t ∧ u = v := by
  induction s generalizing t with
  | nil =>
      cases t with
      | nil => exact ⟨rfl, (List.cons.inj h).2⟩
      | cons d t =>
          have hread := congrArg unescape h
          rw [List.flatMap_cons, List.append_assoc, unescape_escapeChar] at hread
          cases hread
  | cons c s ih =>
      have hread := congrArg unescape h
      rw [List.flatMap_cons, List.append_assoc, unescape_escapeChar] at hread
      cases t with
      | nil => cases hread
      | cons d t =>
          rw [List.flatMap_cons, List.append_assoc, unescape_escapeChar] at hread
          obtain ⟨hchar, hrest⟩ := Prod.mk.inj (Option.some.inj hread)
          obtain ⟨hst, huv⟩ := ih hrest
          exact ⟨by rw [hchar, hst], huv⟩

/-- **A quoted text determines the text and what follows it.** -/
theorem quote_append_inj {s t u v : String} (h : quote s ++ u = quote t ++ v) : s = t ∧ u = v := by
  have hlist := congrArg String.toList h
  unfold quote at hlist
  rw [String.toList_append, String.toList_append, String.toList_ofList, String.toList_ofList,
    List.cons_append, List.cons_append, List.append_assoc, List.append_assoc] at hlist
  obtain ⟨hst, huv⟩ := flatMap_escapeChar_append_inj (List.cons.inj hlist).2
  exact ⟨String.toList_inj.mp hst, String.toList_inj.mp huv⟩

/-! ## Numbers -/

/-- `Number.isFinite(n)`, of a number that is carried as its text. -/
def isFiniteText (text : String) : Bool :=
  text.toList.all fun c => c.isDigit || c == '.' || c == '-' || c == '+' || c == 'e'

/-- `JSON.stringify(n)`: a number without a JSON text prints as `null`. -/
def realText (text : String) : String := if isFiniteText text then text else "null"

theorem closed_isDigit {t : List Char} (h : ∀ c ∈ t, c.isDigit = true ∨ c ∈ ['.', '-', '+', 'e']) :
    Closed t := by
  refine closed_of_forall fun c hc hspecial => ?_
  rcases h c hc with hdigit | hsign
  · simp only [List.mem_cons, List.not_mem_nil, or_false] at hspecial
    rcases hspecial with rfl | rfl | rfl | rfl | rfl | rfl <;> cases hdigit
  · simp only [List.mem_cons, List.not_mem_nil, or_false] at hsign
    rcases hsign with rfl | rfl | rfl | rfl <;> exact absurd hspecial (by decide)

theorem closed_realText (text : String) : Closed (realText text).toList := by
  unfold realText
  split
  next h =>
    refine closed_isDigit fun c hc => ?_
    have hchar := List.all_eq_true.mp h c hc
    simpa [or_assoc] using hchar
  next => exact closed_of_all (by decide)

theorem toList_toString_natCast (n : Nat) : (toString (n : Int)).toList = Nat.toDigits 10 n := Nat.toList_repr

theorem toList_toString_negSucc (n : Nat) :
    (toString (Int.negSucc n)).toList = '-' :: Nat.toDigits 10 (n + 1) := by
  show ("-" ++ Nat.repr (n + 1)).toList = _
  rw [String.toList_append, Nat.toList_repr]
  rfl

/-- What an integer is printed with. -/
theorem isDigit_or_minus_of_mem_toString (n : Int) : ∀ c ∈ (toString n).toList, c.isDigit = true ∨ c = '-' := by
  intro c hc
  cases n with
  | ofNat n =>
      rw [Int.ofNat_eq_natCast, toList_toString_natCast] at hc
      exact .inl (Nat.isDigit_of_mem_toDigits (by decide) (by decide) hc)
  | negSucc n =>
      rw [toList_toString_negSucc] at hc
      rcases List.mem_cons.mp hc with rfl | hc
      · exact .inr rfl
      · exact .inl (Nat.isDigit_of_mem_toDigits (by decide) (by decide) hc)

theorem isDigit_of_mem_toString (n : Int) : ∀ c ∈ (toString n).toList, c.isDigit = true ∨
    c ∈ ['.', '-', '+', 'e'] := by
  intro c hc
  rcases isDigit_or_minus_of_mem_toString n c hc with hdigit | rfl
  · exact .inl hdigit
  · exact .inr (by decide)

theorem toDigits_injective : Function.Injective (Nat.toDigits 10) := by
  intro m n h
  have hback (k : Nat) : Nat.ofDigitChars 10 (Nat.toDigits 10 k) 0 = k :=
    Nat.ofDigitChars_toDigits (by decide) (by decide)
  rw [← hback m, h, hback n]

/-- An integer is told from its text. -/
theorem toString_injective : Function.Injective (toString : Int → String) := by
  have hsign (m n : Nat) : Nat.toDigits 10 m ≠ '-' :: Nat.toDigits 10 n := by
    intro h
    have hmem : '-' ∈ Nat.toDigits 10 m := by
      rw [h]
      exact .head _
    cases Nat.isDigit_of_mem_toDigits (by decide) (by decide) hmem
  intro m n h
  have hlist := congrArg String.toList h
  cases m with
  | ofNat m =>
      cases n with
      | ofNat n =>
          rw [Int.ofNat_eq_natCast, Int.ofNat_eq_natCast, toList_toString_natCast,
            toList_toString_natCast] at hlist
          rw [toDigits_injective hlist]
      | negSucc n =>
          rw [Int.ofNat_eq_natCast, toList_toString_natCast, toList_toString_negSucc] at hlist
          exact absurd hlist (hsign _ _)
  | negSucc m =>
      cases n with
      | ofNat n =>
          rw [Int.ofNat_eq_natCast, toList_toString_natCast, toList_toString_negSucc] at hlist
          exact absurd hlist.symm (hsign _ _)
      | negSucc n =>
          rw [toList_toString_negSucc, toList_toString_negSucc] at hlist
          rw [Nat.succ.inj (toDigits_injective (List.cons.inj hlist).2)]

theorem closed_toString (n : Int) : Closed (toString n).toList := closed_isDigit (isDigit_of_mem_toString n)

/-- What a finite number is printed with. -/
theorem isDigit_of_mem_realText {text : String} (h : isFiniteText text = true) :
    ∀ c ∈ (realText text).toList, c.isDigit = true ∨ c ∈ ['.', '-', '+', 'e'] := by
  intro c hc
  unfold realText at hc
  rw [if_pos h] at hc
  have hchar := List.all_eq_true.mp h c hc
  simpa [or_assoc] using hchar

/-! ## What JSON carries -/

mutual
/-- `JSON.parse(JSON.stringify(v))`, of a value that is not missing. -/
def jsonCopy : Value → Value
  | .undefined | .null => .null
  | .bool b => .bool b
  | .num n => .num n
  | .real text => if isFiniteText text then .real text else .null
  | .str s => .str s
  | .arr items => .arr (jsonCopyItems items)
  | .obj fields => .obj (jsonCopyFields fields)

/-- The elements of an array: a missing one is `null`. -/
def jsonCopyItems : List Value → List Value
  | [] => []
  | v :: vs => jsonCopy v :: jsonCopyItems vs

/-- The properties of an object: a missing one is left out. -/
def jsonCopyFields : List (String × Value) → List (String × Value)
  | [] => []
  | (_, .undefined) :: fields => jsonCopyFields fields
  | (k, v) :: fields => (k, jsonCopy v) :: jsonCopyFields fields
end

/-- JSON carries the value as it is. -/
def Serialisable (v : Value) : Prop := jsonCopy v = v

theorem jsonCopyFields_of_serialisable {fields : Obj} (h : ∀ entry ∈ fields, Serialisable entry.2) :
    jsonCopyFields fields = fields := by
  induction fields with
  | nil => rfl
  | cons entry fields ih =>
      obtain ⟨k, v⟩ := entry
      obtain ⟨hv, hfields⟩ := List.forall_mem_cons.mp h
      unfold Serialisable at hv
      cases v with
      | undefined => cases hv
      | _ => rw [jsonCopyFields, ih hfields, hv]; exact nofun

/-- An object of values that JSON carries is carried. -/
theorem serialisable_obj {fields : Obj} (h : ∀ entry ∈ fields, Serialisable entry.2) :
    Serialisable (.obj fields) := by
  unfold Serialisable
  rw [jsonCopy, jsonCopyFields_of_serialisable h]

theorem serialisable_str (s : String) : Serialisable (.str s) := rfl

theorem serialisable_bool (b : Bool) : Serialisable (.bool b) := rfl

end NestAmqp.Js
