/-
# NestAmqp.Amqp.TopicMatching — where the filter of a consumer and a topic exchange disagree.

The loop of `matchesRoutingKey` goes through the words of a pattern once and returns `true` at the first
`#`. It never looks at what follows a `#`, nor does it notice that the key has been used up while only `*`
came by. So it accepts whatever a topic exchange routes, and more: a pattern overreaches on a key when the
loop arrives at a `#` and the exchange does not match the rest.  An empty key is one empty word to the loop
and no word to the exchange.
-/
import NestAmqp.Amqp.RoutingKey

namespace NestAmqp.Amqp

open NestAmqp.Js
open NestAmqp.Lib.Topic

/-! ## On words -/

section Words

variable {W : Type} [DecidableEq W] {P : List (Token W)} {ks : List W}

/-- The words of `ks` agree with `P` as far as a `#`.  They are used up before it, or none of their ends matches
what follows it. -/
inductive Overreaches : List (Token W) → List W → Prop
  | hash {P : List (Token W)} {ks : List W} (hrest : ∀ rest, rest <:+ ks → routes P rest = false) :
      Overreaches (.hash :: P) ks
  | usedUp {P : List (Token W)} (hrest : overruns P = true) : Overreaches (.star :: P) []
  | star {P : List (Token W)} {k : W} {ks : List W} (hrest : Overreaches P ks) :
      Overreaches (.star :: P) (k :: ks)
  | word {P : List (Token W)} {k : W} {ks : List W} (hrest : Overreaches P ks) :
      Overreaches (.word k :: P) (k :: ks)

/-- What the exchange routes passes the filter. -/
theorem accepts_of_routes (h : routes P ks = true) : accepts P ks = true := by
  induction P generalizing ks with
  | nil => cases ks <;> trivial
  | cons p P ih =>
      cases p with
      | hash => cases ks <;> rfl
      | star =>
          cases ks with
          | nil => cases h
          | cons k ks => exact ih h
      | word w =>
          cases ks with
          | nil => cases h
          | cons k ks =>
              obtain ⟨rfl, hrest⟩ := (routes_word_cons w P k ks).mp h
              show (k == k && accepts P ks) = true
              rw [beq_self_eq_true, Bool.true_and]
              exact ih hrest

theorem routes_hash_eq_false_iff : routes (.hash :: P) ks = false ↔
    ∀ rest, rest <:+ ks → routes P rest = false := by
  rw [← Bool.not_eq_true, routes_hash_iff]
  constructor
  · rintro h rest ⟨taken, rfl⟩
    exact Bool.eq_false_iff.mpr fun hrest => h ⟨taken, rest, rfl, hrest⟩
  · rintro h ⟨taken, rest, rfl, hrest⟩
    rw [h rest (List.suffix_append taken rest)] at hrest
    cases hrest

/-- **The filter accepts what the exchange does not match** exactly when the pattern overreaches. -/
theorem overreaches_iff : Overreaches P ks ↔ accepts P ks = true ∧ routes P ks = false := by
  constructor
  · intro h
    induction h with
    | hash hrest => exact ⟨by cases ‹List W› <;> rfl, routes_hash_eq_false_iff.mpr hrest⟩
    | usedUp hrest => exact ⟨hrest, rfl⟩
    | star _ ih => exact ih
    | word _ ih =>
        rename_i P k ks _
        refine ⟨?_, Bool.eq_false_iff.mpr fun hroutes => ?_⟩
        · show (k == k && accepts P ks) = true
          rw [beq_self_eq_true, Bool.true_and]
          exact ih.1
        · rw [((routes_word_cons k P k ks).mp hroutes).2] at ih
          cases ih.2
  · rintro ⟨haccepts, hroutes⟩
    induction P generalizing ks with
    | nil =>
        cases ks with
        | nil => cases hroutes
        | cons k ks => cases haccepts
    | cons p P ih =>
        cases p with
        | hash => exact .hash (routes_hash_eq_false_iff.mp hroutes)
        | star =>
            cases ks with
            | nil => exact .usedUp haccepts
            | cons k ks => exact .star (ih haccepts hroutes)
        | word w =>
            cases ks with
            | nil => cases haccepts
            | cons k ks =>
                have hboth : k = w ∧ accepts P ks = true := by
                  rw [← beq_iff_eq, ← Bool.and_eq_true]
                  exact haccepts
                obtain ⟨rfl, hrest⟩ := hboth
                refine .word (ih hrest (Bool.eq_false_iff.mpr fun h => ?_))
                rw [(routes_word_cons k P k ks).mpr ⟨rfl, h⟩] at hroutes
                cases hroutes

/-- A pattern takes no words exactly when it is all `#`. -/
theorem routes_empty_iff : routes P [] = true ↔ ∀ p ∈ P, p = .hash := by
  induction P with
  | nil => exact ⟨fun _ p hp => (by cases hp), fun _ => rfl⟩
  | cons p P ih =>
      rw [List.forall_mem_cons, ← ih]
      constructor
      · exact routes_empty_cons
      · rintro ⟨rfl, hrest⟩
        exact routes_hash_append [] hrest

end Words

/-! ## On texts -/

/-- The pattern takes one empty word: it begins with a `#`, or with `*` or an empty word, behind which
nothing or only `*` and a `#` follow. -/
inductive TakesEmptyWord : List (Token String) → Prop
  | hash {P : List (Token String)} : TakesEmptyWord (.hash :: P)
  | first {p : Token String} {P : List (Token String)} (hp : p = .star ∨ p = .word "")
      (hrest : P = [] ∨ overruns P = true) : TakesEmptyWord (p :: P)

/-- The pattern takes more keys than a topic exchange: on a key with words it overreaches; the empty key it
takes for one empty word, though it is neither the empty pattern nor all `#`. -/
def Overmatches (p key : String) : Prop :=
  if key = "" then p ≠ "" ∧ TakesEmptyWord (patternOf p) ∧ ∃ t ∈ patternOf p, t ≠ .hash
  else Overreaches (patternOf p) (split key '.')

theorem takesEmptyWord_iff {P : List (Token String)} (hne : P ≠ []) :
    TakesEmptyWord P ↔ accepts P [""] = true := by
  have hempty : ∀ P : List (Token String), accepts P [] = true ↔ P = [] ∨ overruns P = true := by
    intro P
    cases P with
    | nil => exact ⟨fun _ => .inl rfl, fun _ => rfl⟩
    | cons p P => cases p <;> simp [accepts, overruns]
  cases P with
  | nil => exact absurd rfl hne
  | cons p P =>
      cases p with
      | hash => exact ⟨fun _ => rfl, fun _ => .hash⟩
      | star =>
          show _ ↔ accepts P [] = true
          rw [hempty]
          constructor
          · rintro (_ | ⟨-, hrest⟩)
            exact hrest
          · exact .first (.inl rfl)
      | word w =>
          show _ ↔ ("" == w && accepts P []) = true
          rw [Bool.and_eq_true, hempty, beq_iff_eq]
          constructor
          · rintro (_ | ⟨hp | hp, hrest⟩)
            · cases hp
            · cases hp
              exact ⟨rfl, hrest⟩
          · rintro ⟨rfl, hrest⟩
            exact .first (.inr rfl) hrest

theorem patternOf_ne_nil (p : String) : patternOf p ≠ [] := by
  unfold patternOf
  rw [Ne, List.map_eq_nil_iff]
  exact split_ne_nil p '.'

/-- The words of a key that has some are those of its text. -/
theorem topicRoutes_of_ne {p key : String} (hkey : key ≠ "") :
    topicRoutes p key = routes (patternOf p) (split key '.') := by
  unfold topicRoutes topicWords
  rw [if_neg hkey]
  by_cases hp : p = ""
  · -- neither no word nor one empty word is the key
    obtain ⟨k, ks, heq⟩ := List.exists_cons_of_ne_nil (split_ne_nil key '.')
    rw [if_pos hp, heq, hp]
    symm
    refine Bool.eq_false_iff.mpr fun h => ?_
    obtain ⟨rfl, hrest⟩ := (routes_word_cons "" [] k ks).mp h
    cases ks with
    | nil => exact hkey (split_injective heq)
    | cons k' ks => cases hrest
  · rw [if_neg hp]
    rfl

theorem topicRoutes_empty_iff {p : String} (hp : p ≠ "") :
    topicRoutes p "" = true ↔ ∀ t ∈ patternOf p, t = .hash := by
  rw [← routes_empty_iff]
  unfold topicRoutes topicWords
  rw [if_pos rfl, if_neg hp]
  rfl

/-- **What a topic exchange routes passes the filter.** -/
theorem matchesPattern_of_topicRoutes {p key : String} (h : topicRoutes p key = true) :
    matchesPattern key p = true := by
  rw [matchesPattern_eq_accepts]
  by_cases hkey : key = ""
  · subst hkey
    by_cases hp : p = ""
    · rw [hp]
      rfl
    · have hall := (topicRoutes_empty_iff hp).mp h
      obtain ⟨t, P, heq⟩ := List.exists_cons_of_ne_nil (patternOf_ne_nil p)
      rw [heq, hall t (heq ▸ .head _)]
      rfl
  · rw [topicRoutes_of_ne hkey] at h
    exact accepts_of_routes h

/-- A pattern overmatches a key that it accepts and the exchange does not route. -/
theorem overmatches_iff {p key : String} :
    Overmatches p key ↔ matchesPattern key p = true ∧ topicRoutes p key = false := by
  unfold Overmatches
  rw [matchesPattern_eq_accepts]
  by_cases hkey : key = ""
  · subst hkey
    rw [if_pos rfl]
    by_cases hp : p = ""
    · subst hp
      exact ⟨fun h => absurd rfl h.1, fun h => by cases h.2⟩
    · rw [takesEmptyWord_iff (patternOf_ne_nil p), ← Bool.not_eq_true, topicRoutes_empty_iff hp]
      have hwords : split "" '.' = [""] := rfl
      rw [hwords]
      simp only [ne_eq, hp, not_false_iff, true_and, not_forall, exists_prop]
  · rw [if_neg hkey, overreaches_iff, topicRoutes_of_ne hkey]

/-- The patterns that `matchesRoutingKey` goes through. -/
def patternsOf : Option OneOrMany → List String
  | none => []
  | some (.one p) => [p]
  | some (.many ps) => ps

theorem matchesRoutingKey_iff (key : String) (pattern : Option OneOrMany) :
    matchesRoutingKey key pattern = true ↔ ∃ p ∈ patternsOf pattern, matchesPattern key p = true := by
  rcases pattern with _ | p | ps
  · simp [matchesRoutingKey, patternsOf]
  · simp [matchesRoutingKey, patternsOf]
  · simp [matchesRoutingKey, patternsOf]

/-- **The filter is topic matching exactly where no pattern overmatches**: for one pattern, that it does
not; for a list, that none does, unless another one matches anyway. -/
theorem matchesRoutingKey_topic_iff (key : String) :
    (∀ p, (matchesRoutingKey key (some (.one p)) = true ↔ topicRoutes p key = true) ↔ ¬ Overmatches p key) ∧
      ∀ pattern, (matchesRoutingKey key pattern = true ↔ ∃ p ∈ patternsOf pattern, topicRoutes p key = true) ↔
        (∃ p ∈ patternsOf pattern, topicRoutes p key = true) ∨ ∀ p ∈ patternsOf pattern,
        ¬ Overmatches p key := by
  constructor
  · intro p
    show (matchesPattern key p = true ↔ _) ↔ _
    rw [overmatches_iff, not_and, Bool.not_eq_false]
    exact ⟨fun h => h.mp, fun h => ⟨h, matchesPattern_of_topicRoutes⟩⟩
  · intro pattern
    rw [matchesRoutingKey_iff]
    constructor
    · intro h
      by_cases hsome : ∃ p ∈ patternsOf pattern, topicRoutes p key = true
      · exact .inl hsome
      · refine .inr fun p hp hover => ?_
        exact hsome (h.mp ⟨p, hp, (overmatches_iff.mp hover).1⟩)
    · intro h
      refine ⟨fun ⟨p, hp, hmatches⟩ => ?_, fun ⟨p, hp, hroutes⟩ =>
        ⟨p, hp, matchesPattern_of_topicRoutes hroutes⟩⟩
      rcases h with hsome | hnone
      · exact hsome
      · refine ⟨p, hp, by_contra fun hno => hnone p hp (overmatches_iff.mpr ⟨hmatches, ?_⟩)⟩
        exact Bool.eq_false_iff.mpr hno

/-- A deletion passes the filter of a consumer of creations. -/
theorem not_matchesRoutingKey_topic_created :
    ¬ ∀ key p, matchesRoutingKey key (some (.one p)) = true ↔ topicRoutes p key = true := by
  intro h
  have := (h "user.deleted" "#.created").mp (by decide +kernel)
  exact absurd this (by decide +kernel)

end NestAmqp.Amqp
