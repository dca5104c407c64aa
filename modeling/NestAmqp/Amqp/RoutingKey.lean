/-
# NestAmqp.Amqp.RoutingKey — the routing-key filter of an RPC consumer.

`matchesRoutingKey` of the utils module, word by word as its loop goes: a `#` accepts at once, a
mismatch rejects at once, and a pattern that is used up accepts when it had as many words as the key.
The rest of the module compares that filter with what a topic exchange routes: `covers` decides whether
a pattern of the filter lets through every key that a binding key brings into the queue.
-/
import NestAmqp.Js.Value
import NestAmqp.Lib.Topic

namespace NestAmqp.Amqp

open NestAmqp.Js
open NestAmqp.Lib.Topic

/-- How the loop over the words of a pattern ends. -/
inductive Scan where
  | hash
  | failed
  | finished
  deriving DecidableEq, Repr

/-- The loop: `splitKey` holds the words of the key from the current position on. -/
def scan : List String → List String → Scan
  | _, [] => .finished
  | splitKey, p :: splitPattern =>
      if p = "#" then .hash
      else if p ≠ "*" ∧ splitKey.head? ≠ some p then .failed
      else scan splitKey.tail splitPattern

/-- What the round says after the loop, given whether the key and the pattern have equally many words. -/
def Scan.verdict (sameLength : Bool) : Scan → Bool
  | .hash => true
  | .failed => false
  | .finished => sameLength

/-- One round of the outer loop: does the key match the pattern `p`? -/
def matchesPattern (routingKey p : String) : Bool :=
  let splitKey := split routingKey '.'
  let splitPattern := split p '.'
  routingKey == p ||
    (scan splitKey splitPattern).verdict (splitKey.length == splitPattern.length)

/-- `matchesRoutingKey(routingKey, pattern)`: a missing pattern and an empty list match nothing. -/
def matchesRoutingKey (routingKey : String) : Option OneOrMany → Bool
  | none => false
  | some (.one p) => matchesPattern routingKey p
  | some (.many ps) => ps.any (matchesPattern routingKey)

@[simp] theorem matchesPattern_self (key : String) : matchesPattern key key = true := by
  simp [matchesPattern]

/-! ## The filter on tokens -/

/-- A word of a pattern as the filter and the broker read it. -/
def token (w : String) : Token String :=
  if w = "#" then .hash else if w = "*" then .star else .word w

@[simp] theorem token_hash : token "#" = .hash := rfl

@[simp] theorem token_star : token "*" = .star := rfl

theorem token_word {w : String} (hhash : w ≠ "#") (hstar : w ≠ "*") : token w = .word w := by
  unfold token
  rw [if_neg hhash, if_neg hstar]

/-- The tokens of a pattern. -/
def patternOf (p : String) : List (Token String) := (split p '.').map token

section Filter

variable {W : Type} [DecidableEq W]

/-- What is left of a pattern accepts a key that is used up: only `*` stands before a `#`, because the
loop compares no word with them. -/
def overruns : List (Token W) → Bool
  | .hash :: _ => true
  | .star :: P => overruns P
  | _ => false

/-- The filter, token by token: the first `#` accepts, whatever follows it. -/
def accepts : List (Token W) → List W → Bool
  | .hash :: _, _ => true
  | [], ks => ks.isEmpty
  | .star :: P, [] => overruns P
  | .word _ :: _, [] => false
  | .star :: P, _ :: ks => accepts P ks
  | .word w :: P, k :: ks => k == w && accepts P ks

/-- Does the filter `P` accept everything that the binding `B` routes? -/
def covers : List (Token W) → List (Token W) → Bool
  | _, .hash :: _ => true
  | [], [] => true
  | [], P => overruns P
  | _ :: _, [] => false
  | .hash :: _, P => overruns P
  | _ :: B, .star :: P => covers B P
  | .word w :: B, .word w' :: P => w == w' && covers B P
  | .star :: _, .word _ :: _ => false

/-- A pattern that lets a used-up key through lets any key through. -/
theorem accepts_of_overruns {P : List (Token W)} (h : overruns P = true) (ks : List W) :
    accepts P ks = true := by
  induction P generalizing ks with
  | nil => cases h
  | cons p P ih =>
      cases p with
      | word w => cases h
      | hash => cases ks <;> rfl
      | star =>
          cases ks with
          | nil => exact h
          | cons k ks => exact ih h ks

/-- What is covered is accepted. -/
theorem accepts_of_covers {B P : List (Token W)} (h : covers B P = true) {ks : List W}
    (hks : routes B ks = true) : accepts P ks = true := by
  induction P generalizing B ks with
  | nil =>
      cases B with
      | nil => cases ks <;> trivial
      | cons b B => cases h
  | cons p P ih =>
      cases p with
      | hash => cases ks <;> rfl
      | star =>
          cases B with
          | nil => exact accepts_of_overruns h ks
          | cons b B =>
              cases b with
              | hash => exact accepts_of_overruns h ks
              | star =>
                  cases ks with
                  | nil => cases hks
                  | cons k ks => exact ih h hks
              | word w =>
                  cases ks with
                  | nil => cases hks
                  | cons k ks => exact ih h ((routes_word_cons w B k ks).mp hks).2
      | word w' =>
          cases B with
          | nil => cases h
          | cons b B =>
              cases b with
              | hash => cases h
              | star => cases h
              | word w =>
                  have hboth : w = w' ∧ covers B P = true := by
                    rw [← beq_iff_eq, ← Bool.and_eq_true]
                    exact h
                  cases ks with
                  | nil => cases hks
                  | cons k ks =>
                      obtain ⟨rfl, hrest⟩ := (routes_word_cons w B k ks).mp hks
                      show (k == w' && accepts P ks) = true
                      rw [Bool.and_eq_true, beq_iff_eq]
                      exact ⟨hboth.1, ih hboth.2 hrest⟩

/-- Enough fresh words defeat a filter that does not overrun: a literal word is missed, or the key is
too long. -/
theorem not_accepts_fresh {P : List (Token W)} (h : overruns P = false) {fresh : W}
    (hfresh : .word fresh ∉ P) (ks : List W) :
    accepts P (List.replicate (P.length + 1) fresh ++ ks) = false := by
  induction P with
  | nil => rfl
  | cons p P ih =>
      rw [List.length_cons, List.replicate_succ, List.cons_append]
      cases p with
      | hash => cases h
      | star => exact ih h fun hmem => hfresh (.tail _ hmem)
      | word w =>
          have hne : (fresh == w) = false := by
            rw [beq_eq_false_iff_ne]
            rintro rfl
            exact hfresh (.head _)
          show (fresh == w && accepts P _) = false
          rw [hne, Bool.false_and]

/-- The words of `ks` come from the binding and the fresh word; without the fresh word they spell the
binding out. -/
structure DrawnFrom (fresh : W) (B : List (Token W)) (ks : List W) : Prop where
  spelled : fresh ∈ ks ∨ B = ks.map .word
  words : ∀ k ∈ ks, k = fresh ∨ .word k ∈ B

omit [DecidableEq W] in
theorem DrawnFrom.cons_word {fresh : W} {B : List (Token W)} {ks : List W} (h : DrawnFrom fresh B ks)
    (w : W) : DrawnFrom fresh (.word w :: B) (w :: ks) where
  spelled := by
    rcases h.spelled with hmem | rfl
    · exact .inl (.tail _ hmem)
    · exact .inr rfl
  words k hk := by
    rcases List.mem_cons.mp hk with rfl | hk
    · exact .inr (.head _)
    · exact (h.words k hk).imp_right (List.mem_cons_of_mem _)

omit [DecidableEq W] in
theorem DrawnFrom.cons_fresh {fresh : W} {B : List (Token W)} {ks : List W}
    (h : ∀ k ∈ ks, k = fresh ∨ .word k ∈ B) (b : Token W) : DrawnFrom fresh (b :: B) (fresh :: ks) where
  spelled := .inl (.head _)
  words k hk := by
    rcases List.mem_cons.mp hk with rfl | hk
    · exact .inl rfl
    · exact (h k hk).imp_right (List.mem_cons_of_mem _)

omit [DecidableEq W] in
theorem drawnFrom_sample (fresh : W) (B : List (Token W)) : DrawnFrom fresh B (sample fresh B) := by
  induction B with
  | nil => exact ⟨.inr rfl, fun k hk => by cases hk⟩
  | cons b B ih =>
      cases b with
      | word w => exact ih.cons_word w
      | star => exact DrawnFrom.cons_fresh ih.words .star
      | hash => exact DrawnFrom.cons_fresh ih.words .hash

/-- A `#` of the binding brings as many fresh words as it takes. -/
theorem exists_missed_of_hash {B P : List (Token W)} (h : overruns P = false) {fresh : W}
    (hfresh : .word fresh ∉ P) :
    ∃ ks, routes (.hash :: B) ks = true ∧ accepts P ks = false ∧ DrawnFrom fresh (.hash :: B) ks := by
  refine ⟨List.replicate (P.length + 1) fresh ++ sample fresh B,
    routes_hash_append _ (routes_sample fresh B), not_accepts_fresh h hfresh _, ?_⟩
  rw [List.replicate_succ, List.cons_append]
  refine DrawnFrom.cons_fresh (fun k hk => ?_) .hash
  rcases List.mem_append.mp hk with hk | hk
  · exact .inl (List.eq_of_mem_replicate hk)
  · exact (drawnFrom_sample fresh B).words k hk

/-- What is not covered is missed: some key that `B` routes is not accepted. -/
theorem exists_missed {B P : List (Token W)} (h : covers B P = false) {fresh : W}
    (hfresh : .word fresh ∉ P) :
    ∃ ks, routes B ks = true ∧ accepts P ks = false ∧ DrawnFrom fresh B ks := by
  induction P generalizing B with
  | nil =>
      cases B with
      | nil => cases h
      | cons b B => exact ⟨sample fresh (b :: B), routes_sample fresh _, rfl, drawnFrom_sample fresh _⟩
  | cons p P ih =>
      have htail : Token.word fresh ∉ P := fun hmem => hfresh (.tail _ hmem)
      cases B with
      | nil =>
          refine ⟨[], rfl, ?_, drawnFrom_sample fresh []⟩
          cases p with
          | hash => cases h
          | star => exact h
          | word w => rfl
      | cons b B =>
          cases p with
          | hash => cases b <;> cases h
          | star =>
              cases b with
              | hash => exact exists_missed_of_hash h hfresh
              | star =>
                  obtain ⟨ks, hks, hmiss, hdrawn⟩ := ih h htail
                  exact ⟨fresh :: ks, hks, hmiss, DrawnFrom.cons_fresh hdrawn.words .star⟩
              | word w =>
                  obtain ⟨ks, hks, hmiss, hdrawn⟩ := ih h htail
                  exact ⟨w :: ks, (routes_word_cons w B w ks).mpr ⟨rfl, hks⟩, hmiss,
                    hdrawn.cons_word w⟩
          | word w' =>
              -- the first words differ, or they agree and the rest is missed
              have hdiffer {k : W} (hk : k ≠ w') (ks : List W) :
                  accepts (.word w' :: P) (k :: ks) = false := by
                show (k == w' && accepts P ks) = false
                rw [beq_eq_false_iff_ne.mpr hk, Bool.false_and]
              cases b with
              | hash => exact exists_missed_of_hash rfl hfresh
              | star =>
                  have hne : fresh ≠ w' := by
                    rintro rfl
                    exact hfresh (.head _)
                  exact ⟨sample fresh (.star :: B), routes_sample fresh _, hdiffer hne _,
                    drawnFrom_sample fresh _⟩
              | word w =>
                  by_cases hww : w = w'
                  · subst hww
                    have hrest : covers B P = false := by
                      have hsame : (w == w && covers B P) = false := h
                      rwa [beq_self_eq_true, Bool.true_and] at hsame
                    obtain ⟨ks, hks, hmiss, hdrawn⟩ := ih hrest htail
                    refine ⟨w :: ks, (routes_word_cons w B w ks).mpr ⟨rfl, hks⟩, ?_,
                      hdrawn.cons_word w⟩
                    show (w == w && accepts P ks) = false
                    rw [hmiss, Bool.and_false]
                  · exact ⟨sample fresh (.word w :: B), routes_sample fresh _, hdiffer hww _,
                      drawnFrom_sample fresh _⟩

end Filter

/-! ## The loop is the filter -/

/-- On a key that is used up the loop accepts what overruns. -/
theorem scan_nil_verdict (P : List String) : (scan [] P).verdict false = overruns (P.map token) := by
  induction P with
  | nil => rfl
  | cons p P ih =>
      unfold scan
      rw [List.map_cons]
      by_cases hhash : p = "#"
      · rw [if_pos hhash, hhash]
        rfl
      · rw [if_neg hhash]
        by_cases hstar : p = "*"
        · rw [if_neg fun h => h.1 hstar, hstar]
          exact ih
        · rw [if_pos ⟨hstar, by simp⟩, token_word hhash hstar]
          rfl

theorem sameLength_cons (k p : String) (ks P : List String) :
    ((k :: ks).length == (p :: P).length) = (ks.length == P.length) := by simp

/-- **The loop, token by token.**  It accepts what the filter accepts. -/
theorem scan_verdict (P ks : List String) :
    (scan ks P).verdict (ks.length == P.length) = accepts (P.map token) ks := by
  induction P generalizing ks with
  | nil => cases ks <;> rfl
  | cons p P ih =>
      unfold scan
      rw [List.map_cons]
      by_cases hhash : p = "#"
      · rw [if_pos hhash, hhash]
        cases ks <;> rfl
      · rw [if_neg hhash]
        by_cases hstar : p = "*"
        · rw [if_neg fun h => h.1 hstar, hstar]
          cases ks with
          | nil => exact scan_nil_verdict P
          | cons k ks =>
              rw [sameLength_cons]
              exact ih ks
        · rw [token_word hhash hstar]
          cases ks with
          | nil =>
              rw [if_pos ⟨hstar, by simp⟩]
              rfl
          | cons k ks =>
              show _ = (k == p && accepts (P.map token) ks)
              by_cases hk : k = p
              · rw [if_neg fun h => h.2 (by rw [hk]; rfl), sameLength_cons, hk, beq_self_eq_true,
                  Bool.true_and]
                exact ih ks
              · rw [if_pos ⟨hstar, by simpa using hk⟩, beq_eq_false_iff_ne.mpr hk, Bool.false_and]
                rfl

/-- Words read as tokens accept themselves. -/
theorem accepts_map_token (ks : List String) : accepts (ks.map token) ks = true := by
  induction ks with
  | nil => rfl
  | cons k ks ih =>
      rw [List.map_cons]
      unfold token
      split
      · rfl
      · split
        · exact ih
        · show (k == k && accepts (ks.map token) ks) = true
          rw [ih, beq_self_eq_true, Bool.true_and]

/-- **The filter of a consumer.**  The comparison of the whole texts adds nothing to the loop. -/
theorem matchesPattern_eq_accepts (key p : String) :
    matchesPattern key p = accepts (patternOf p) (split key '.') := by
  unfold matchesPattern patternOf
  simp only [scan_verdict]
  by_cases h : key = p
  · rw [h, accepts_map_token, Bool.or_true]
  · rw [beq_eq_false_iff_ne.mpr h, Bool.false_or]

/-! ## Keys -/

/-- The words of a key as a topic exchange reads it: an empty key has none. -/
def topicWords (s : String) : List String := if s = "" then [] else split s '.'

/-- A topic exchange routes `key` to a queue bound with `bindingKey`. -/
def topicRoutes (bindingKey key : String) : Bool :=
  routes ((topicWords bindingKey).map token) (topicWords key)

/-- Words without dots, joined by dots, are split again. -/
theorem split_join {ks : List String} (hne : ks ≠ []) (hdots : ∀ k ∈ ks, '.' ∉ k.toList) :
    split (String.ofList (['.'].intercalate (ks.map String.toList))) '.' = ks := by
  unfold split
  rw [String.toList_ofList, List.splitOn_intercalate]
  · rw [List.map_map]
    have hid : String.ofList ∘ String.toList = id := funext fun s => String.ofList_toList
    rw [hid, List.map_id]
  · intro l hl
    obtain ⟨k, hk, rfl⟩ := List.mem_map.mp hl
    exact hdots k hk
  · rwa [Ne, List.map_eq_nil_iff]

/-- A text is its words, joined. -/
theorem split_injective {s t : String} (h : split s '.' = split t '.') : s = t := by
  unfold split at h
  have hwords : s.toList.splitOn '.' = t.toList.splitOn '.' :=
    List.map_injective_iff.mpr (fun _ _ => String.ofList_injective) h
  have hjoined := congrArg (['.'].intercalate ·) hwords
  simp only [List.intercalate_splitOn] at hjoined
  exact String.toList_inj.mp hjoined

theorem token_eq_word_iff {v w : String} : token v = .word w ↔ v = w ∧ v ≠ "#" ∧ v ≠ "*" := by
  unfold token
  split
  next h => simp [h]
  · split
    next h => simp [h]
    next hhash hstar => simp [hhash, hstar]

/-- A word of a pattern is one of the words of its text. -/
theorem mem_split_of_mem_patternOf {p w : String} (h : .word w ∈ patternOf p) : w ∈ split p '.' := by
  obtain ⟨v, hv, htoken⟩ := List.mem_map.mp h
  rw [← (token_eq_word_iff.mp htoken).1]
  exact hv

/-- The words of a pattern are of bounded length. -/
theorem exists_length_bound (P : List (Token String)) : ∃ n, ∀ w, .word w ∈ P → w.length ≤ n := by
  induction P with
  | nil => exact ⟨0, fun w h => by cases h⟩
  | cons p P ih =>
      obtain ⟨n, hn⟩ := ih
      cases p with
      | word v =>
          refine ⟨max v.length n, fun w h => ?_⟩
          rcases List.mem_cons.mp h with heq | h
          · cases heq
            exact Nat.le_max_left _ _
          · exact (hn w h).trans (Nat.le_max_right _ _)
      | star => exact ⟨n, fun w h => hn w ((List.mem_cons.mp h).resolve_left nofun)⟩
      | hash => exact ⟨n, fun w h => hn w ((List.mem_cons.mp h).resolve_left nofun)⟩

/-- Some word without dots is none of the pattern's. -/
theorem exists_fresh_word (P : List (Token String)) :
    ∃ fresh : String, .word fresh ∉ P ∧ fresh ≠ "" ∧ '.' ∉ fresh.toList := by
  obtain ⟨n, hn⟩ := exists_length_bound P
  refine ⟨String.ofList (List.replicate (n + 1) 'x'), fun hmem => ?_, fun hempty => ?_, ?_⟩
  · have hle := hn _ hmem
    rw [String.length_ofList, List.length_replicate] at hle
    omega
  · have hlength := congrArg String.length hempty
    rw [String.length_ofList, List.length_replicate] at hlength
    cases hlength
  · rw [String.toList_ofList]
    exact fun hmem => by cases List.eq_of_mem_replicate hmem

/-- A binding key routes the key with its own text. -/
theorem topicRoutes_self (b : String) : topicRoutes b b = true := by
  unfold topicRoutes
  generalize topicWords b = ws
  induction ws with
  | nil => rfl
  | cons w ws ih =>
      rw [List.map_cons]
      unfold token
      split
      · exact routes_hash_append [w] ih
      · split
        · exact ih
        · exact (routes_word_cons w _ w ws).mpr ⟨rfl, ih⟩

/-- The binding key `#` routes every key. -/
theorem topicRoutes_hash (key : String) : topicRoutes "#" key = true :=
  (routes_hash_iff [] _).mpr ⟨topicWords key, [], (List.append_nil _).symm, rfl⟩

/-- A covered binding key brings in only what passes the filter. -/
theorem matchesPattern_of_covers {b p key : String} (h : covers (patternOf b) (patternOf p) = true)
    (hroutes : topicRoutes b key = true) : matchesPattern key p = true := by
  rw [matchesPattern_eq_accepts]
  apply accepts_of_covers h
  unfold topicRoutes topicWords at hroutes
  by_cases hb : b = ""
  · -- the empty binding key has no words and routes the empty key alone
    have hkey : key = "" := by
      by_contra hkey
      rw [if_pos hb, if_neg hkey] at hroutes
      obtain ⟨k, ks, heq⟩ := List.exists_cons_of_ne_nil (split_ne_nil key '.')
      rw [heq] at hroutes
      cases hroutes
    rw [hb, hkey]
    rfl
  · rw [if_neg hb] at hroutes
    by_cases hkey : key = ""
    · -- the empty key is one empty word to the filter, and no word to the exchange
      rw [if_pos hkey] at hroutes
      obtain ⟨w, ws, heq⟩ := List.exists_cons_of_ne_nil (split_ne_nil b '.')
      unfold patternOf
      rw [heq, List.map_cons] at hroutes ⊢
      obtain ⟨hhash, hrest⟩ := routes_empty_cons hroutes
      rw [hhash, hkey]
      exact routes_hash_append [""] hrest
    · rw [if_neg hkey] at hroutes
      exact hroutes

/-- An uncovered binding key brings in a key that does not pass. -/
theorem exists_unmatched_of_not_covers {b p : String}
    (h : covers (patternOf b) (patternOf p) = false) :
    ∃ key, topicRoutes b key = true ∧ matchesPattern key p = false := by
  obtain ⟨fresh, hfresh, hne, hdot⟩ := exists_fresh_word (patternOf p)
  obtain ⟨ks, hroutes, hmiss, hdrawn⟩ := exists_missed h hfresh
  -- a key with words, none of which has a dot, is split into them again
  have hks : ks ≠ [] := by
    rintro rfl
    have hword := hdrawn.spelled.resolve_left List.not_mem_nil
    exact split_ne_nil b '.' (List.map_eq_nil_iff.mp hword)
  have hdots : ∀ k ∈ ks, '.' ∉ k.toList := by
    intro k hk
    rcases hdrawn.words k hk with rfl | hword
    · exact hdot
    · exact not_mem_of_mem_split (mem_split_of_mem_patternOf hword)
  have hsplit := split_join hks hdots
  refine ⟨_, ?_, by rw [matchesPattern_eq_accepts, hsplit]; exact hmiss⟩
  generalize String.ofList (['.'].intercalate (ks.map String.toList)) = key at hsplit
  unfold topicRoutes topicWords
  by_cases hkey : key = ""
  · -- only the empty binding key is spelled out by the empty key
    rw [hkey] at hsplit
    obtain rfl : [""] = ks := hsplit
    have hspelled : patternOf b = [.word ""] := by
      refine hdrawn.spelled.resolve_left fun hmem => ?_
      exact hne (List.mem_singleton.mp hmem)
    obtain ⟨w, hw, htoken⟩ := List.map_eq_singleton_iff.mp hspelled
    have hb : b = "" := by
      apply split_injective
      rw [hw, (token_eq_word_iff.mp htoken).1]
      rfl
    rw [hb, hkey]
    rfl
  · rw [if_neg hkey, hsplit]
    by_cases hb : b = ""
    · -- the empty binding key spells the empty word, which is not what `key` is
      exfalso
      rw [hb] at hroutes
      cases ks with
      | nil => exact hks rfl
      | cons k ks =>
          obtain ⟨rfl, hrest⟩ := (routes_word_cons "" [] k ks).mp hroutes
          cases ks with
          | nil => exact hkey (split_injective hsplit)
          | cons k ks => cases hrest
    · rw [if_neg hb]
      exact hroutes

/-- **What a topic binding brings in passes the filter exactly when the pattern covers it.** -/
theorem covers_iff (b p : String) :
    covers (patternOf b) (patternOf p) = true ↔
      ∀ key, topicRoutes b key = true → matchesPattern key p = true := by
  constructor
  · exact fun h key => matchesPattern_of_covers h
  · intro h
    by_contra hcovers
    obtain ⟨key, hroutes, hmiss⟩ := exists_unmatched_of_not_covers (Bool.eq_false_iff.mpr hcovers)
    rw [h key hroutes] at hmiss
    cases hmiss

end NestAmqp.Amqp
