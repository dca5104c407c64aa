/-
# NestAmqp.Acl.CacheBounds — the memory tier of the decision cache stays small, ordered and fresh.

`AclCacheService` evicts from the front of a map that iterates in insertion order.  Runs of its calls are
followed here with a log of the keys they write, newest first.  The map is always in the order of that
log, so that the front holds the least recently written entries; expiry, invalidation and promotion keep
the order, each in its own way.
-/
import NestAmqp.Acl.CacheService
import NestAmqp.Lib.Machine
import NestAmqp.Lib.Recency

namespace NestAmqp.Acl.CacheBounds

open NestAmqp.Js
open NestAmqp.Lib.Machine
open NestAmqp.Lib.Recency

/-! ## Calls -/

/-- The cache, and the keys written to its memory tier, newest first. -/
structure Recorded where
  cache : AclCacheService := {}
  writes : List String := []

/-- A call of the service.  `lookUp` and `readStore` are the two halves of `get`, which other calls may
separate while the shared store answers. -/
inductive Call
  | get (weather : CacheWeather) (userId action : String)
  | lookUp (weather : CacheWeather) (userId action : String)
  | readStore (weather : CacheWeather) (userId action : String)
  | set (weather : CacheWeather) (userId action : String) (value : Bool) (seenGen : Option Nat)
  | invalidate (weather : CacheWeather) (userId : Option String)
  | invalidateLocalRam (userId : Option String)

/-- The first half of `get`: a hit, or the cache without the expired entry of the key. -/
def lookUp (cache : AclCacheService) (weather : CacheWeather) (key : String) :
    Option Bool × AclCacheService :=
  match cache.ram.lookup key with
  | some entry =>
      if entry.exp > weather.readAt then (some entry.v, cache)
      else (none, { cache with ram := mapDelete cache.ram key })
  | none => (none, cache)

variable (options : AclCacheOptions)

/-- The second half of `get`. -/
def Recorded.readStore (s : Recorded) (weather : CacheWeather) (key : String) : Recorded :=
  let (answer, cache) := s.cache.getStored options weather key
  { cache, writes := if answer.isSome then key :: s.writes else s.writes }

def step (s : Recorded) : Call → Recorded
  | .get weather userId action =>
      match lookUp s.cache weather (cacheKey userId action) with
      | (some _, cache) => { s with cache }
      | (none, cache) => { s with cache }.readStore options weather (cacheKey userId action)
  | .lookUp weather userId action =>
      { s with cache := (lookUp s.cache weather (cacheKey userId action)).2 }
  | .readStore weather userId action => s.readStore options weather (cacheKey userId action)
  | .set weather userId action value seenGen =>
      -- without a snapshot the write is never dropped
      let seenGen := seenGen.getD s.cache.gen
      { cache := s.cache.set options weather userId action value seenGen
        writes := if seenGen ≠ s.cache.gen then s.writes else cacheKey userId action :: s.writes }
  | .invalidate weather userId => { s with cache := s.cache.invalidate weather userId }
  | .invalidateLocalRam userId => { s with cache := s.cache.invalidateLocalRam userId }

/-- The two halves are the whole of `get`. -/
theorem get_eq (cache : AclCacheService) (weather : CacheWeather) (userId action : String) :
    cache.get options weather userId action =
      match lookUp cache weather (cacheKey userId action) with
      | (some v, cache) => (some v, cache)
      | (none, cache) => cache.getStored options weather (cacheKey userId action) := by
  unfold AclCacheService.get lookUp
  dsimp only
  cases cache.ram.lookup (cacheKey userId action) with
  | none => rfl
  | some entry =>
      by_cases hfresh : entry.exp > weather.readAt
      · simp only [if_pos hfresh]
      · simp only [if_neg hfresh]

/-! ## Eviction -/

/-- The loop drops from the front, no more than it must. -/
theorem evict_spec {cap : Int} (hcap : 0 ≤ cap) (ram : List (String × RamEntry)) :
    ∃ out, ram = out ++ evict cap ram ∧ ((evict cap ram).length : Int) ≤ cap ∧
      (out ≠ [] → ((evict cap ram).length : Int) = cap) := by
  induction ram with
  | nil => exact ⟨[], rfl, hcap, fun h => absurd rfl h⟩
  | cons entry ram ih =>
      unfold evict
      split
      next hlarge =>
        obtain ⟨out, hsplit, hle, hfull⟩ := ih
        refine ⟨entry :: out, congrArg (entry :: ·) hsplit, hle, fun _ => ?_⟩
        cases out with
        | nil =>
            -- nothing more had to go
            have hsame : ram = evict cap ram := hsplit
            rw [← hsame] at hle ⊢
            omega
        | cons => exact hfull (List.cons_ne_nil _ _)
      next hsmall =>
        exact ⟨[], rfl, by simpa using hsmall, fun h => absurd rfl h⟩

/-- The same options without the cap. -/
def uncapped (options : AclCacheOptions) : AclCacheOptions := { options with maxRamEntries := some 0 }

theorem ramSet_uncapped (cache : AclCacheService) (key : String) (entry : RamEntry) :
    (cache.ramSet (uncapped options) key entry).ram = mapDelete cache.ram key ++ [(key, entry)] := rfl

/-- What the cap takes from a map: entries from the front, in the order of the writes, until it holds. -/
structure Trims (cap : Int) (log : List String) (before after : List (String × RamEntry)) : Prop where
  bound : (after.length : Int) ≤ cap
  evicts : ∃ evicted, before = evicted ++ after ∧ (evicted ≠ [] → (after.length : Int) = cap) ∧
    ∀ x ∈ evicted, ∀ y ∈ after, lastWrite log x.1 < lastWrite log y.1

variable {options} {cache : AclCacheService} {log : List String}

theorem not_mem_mapDelete (ram : List (String × RamEntry)) (key : String) :
    ∀ e ∈ mapDelete ram key, e.1 ≠ key := fun _ he => bne_iff_ne.mp (List.mem_filter.mp he).2

/-- A write keeps the order of the map, and trims it. -/
theorem inOrder_ramSet (hcap : 1 ≤ options.ramCap) (h : InOrder log cache.ram) (key : String)
    (entry : RamEntry) :
    InOrder (key :: log) (cache.ramSet options key entry).ram ∧
      Trims options.ramCap (key :: log) (cache.ramSet (uncapped options) key entry).ram
        (cache.ramSet options key entry).ram := by
  have hordered : InOrder (key :: log) (mapDelete cache.ram key ++ [(key, entry)]) :=
    (h.sublist List.filter_sublist).write (not_mem_mapDelete cache.ram key) entry
  have hram : (cache.ramSet options key entry).ram =
      evict options.ramCap (mapDelete cache.ram key ++ [(key, entry)]) := if_pos (by omega)
  obtain ⟨out, hsplit, hle, hfull⟩ :=
    evict_spec (by omega : 0 ≤ options.ramCap) (mapDelete cache.ram key ++ [(key, entry)])
  rw [ramSet_uncapped, hram]
  generalize evict options.ramCap (mapDelete cache.ram key ++ [(key, entry)]) = kept at hsplit hle hfull
  rw [hsplit] at hordered ⊢
  exact ⟨hordered.sublist (List.sublist_append_right _ _), hle, out, rfl, hfull, hordered.oldest⟩

/-- A call that writes nothing evicts nothing. -/
theorem Trims.refl {ram : List (String × RamEntry)} (hbound : (ram.length : Int) ≤ options.ramCap) :
    Trims options.ramCap log ram ram :=
  ⟨hbound, [], rfl, fun h => absurd rfl h, nofun⟩

/-! ## What a call does to the memory tier -/

/-- The memory tier is within the cap and in the order of the writes. -/
structure Kept (options : AclCacheOptions) (s : Recorded) : Prop where
  order : InOrder s.writes s.cache.ram
  bound : (s.cache.ram.length : Int) ≤ options.ramCap

/-- What is removed outside the eviction loop keeps the order too. -/
theorem Kept.sublist {s : Recorded} (h : Kept options s) {cache : AclCacheService}
    (hsub : cache.ram.Sublist s.cache.ram) : Kept options { s with cache } :=
  ⟨h.order.sublist hsub, (Int.ofNat_le.mpr hsub.length_le).trans h.bound⟩

theorem lookUp_sublist (cache : AclCacheService) (weather : CacheWeather) (key : String) :
    (lookUp cache weather key).2.ram.Sublist cache.ram := by
  unfold lookUp
  split
  · split
    · exact .refl _
    · exact List.filter_sublist
  · exact .refl _

theorem invalidateLocalRam_sublist (cache : AclCacheService) (userId : Option String) :
    (cache.invalidateLocalRam userId).ram.Sublist cache.ram := by
  unfold AclCacheService.invalidateLocalRam
  dsimp only
  split
  · exact List.filter_sublist
  · exact List.nil_sublist _

theorem invalidate_sublist (cache : AclCacheService) (weather : CacheWeather) (userId : Option String) :
    (cache.invalidate weather userId).ram.Sublist cache.ram := invalidateLocalRam_sublist cache userId

/-- The second tier is a miss, or writes what it found to the first. -/
theorem getStored_cases (cache : AclCacheService) (weather : CacheWeather) (key : String) :
    (∀ options, cache.getStored options weather key = (none, cache)) ∨
      ∃ v, ∀ options, cache.getStored options weather key =
        (some v, cache.ramSet options key { v, exp := weather.promotedAt + options.ramTtl }) := by
  unfold AclCacheService.getStored
  cases cache.store with
  | none => exact .inl fun _ => rfl
  | some store =>
      dsimp only
      by_cases hreads : weather.storeReads = true
      · simp only [if_pos hreads]
        cases AclCacheService.storeGet store key weather.promotedAt with
        | none => exact .inl fun _ => rfl
        | some cached =>
            by_cases htext : cached = "1" ∨ cached = "0"
            · simp only [if_pos htext]
              exact .inr ⟨cached == "1", fun _ => rfl⟩
            · exact .inl fun _ => if_neg htext
      · exact .inl fun _ => if_neg hreads

/-- The memory tier after `set`. -/
theorem ram_set (options : AclCacheOptions) (cache : AclCacheService) (weather : CacheWeather)
    (userId action : String) (value : Bool) {seenGen : Nat} (hgen : seenGen = cache.gen) :
    (cache.set options weather userId action value seenGen).ram =
      (cache.ramSet options (cacheKey userId action)
        { v := value, exp := weather.writtenAt + options.ramTtl }).ram := by
  unfold AclCacheService.set
  rw [if_neg (not_not.mpr hgen)]
  dsimp only
  split
  · rfl
  · split <;> rfl

/-- The second half of a `get`. -/
theorem Kept.readStore {s : Recorded} (hcap : 1 ≤ options.ramCap) (h : Kept options s)
    (weather : CacheWeather) (key : String) :
    Kept options (s.readStore options weather key) ∧
      Trims options.ramCap (s.readStore options weather key).writes
        (s.readStore (uncapped options) weather key).cache.ram
        (s.readStore options weather key).cache.ram := by
  unfold Recorded.readStore
  rcases getStored_cases s.cache weather key with hmiss | ⟨v, hhit⟩
  · rw [hmiss, hmiss]
    exact ⟨⟨h.order, h.bound⟩, .refl h.bound⟩
  · rw [hhit, hhit]
    obtain ⟨horder, htrims⟩ := inOrder_ramSet hcap h.order key
      { v, exp := weather.promotedAt + options.ramTtl }
    exact ⟨⟨horder, htrims.bound⟩, htrims⟩

/-- **Step.**  Every call keeps the memory tier within the cap and in order, and what it evicts was
written before all that it leaves. -/
theorem Kept.step {s : Recorded} (hcap : 1 ≤ options.ramCap) (h : Kept options s) (call : Call) :
    Kept options (step options s call) ∧
      Trims options.ramCap (step options s call).writes
        (step (uncapped options) s call).cache.ram (step options s call).cache.ram := by
  cases call with
  | get weather userId action =>
      unfold CacheBounds.step
      dsimp only
      have hfirst := h.sublist (lookUp_sublist s.cache weather (cacheKey userId action))
      revert hfirst
      rcases lookUp s.cache weather (cacheKey userId action) with ⟨_ | v, cache⟩
      · exact fun hfirst => hfirst.readStore hcap weather _
      · exact fun hfirst => ⟨hfirst, .refl hfirst.bound⟩
  | lookUp weather userId action =>
      have hfirst := h.sublist (lookUp_sublist s.cache weather (cacheKey userId action))
      exact ⟨hfirst, .refl hfirst.bound⟩
  | readStore weather userId action => exact h.readStore hcap weather _
  | set weather userId action value seenGen =>
      by_cases hgen : seenGen.getD s.cache.gen = s.cache.gen
      · obtain ⟨horder, htrims⟩ := inOrder_ramSet hcap h.order (cacheKey userId action)
          { v := value, exp := weather.writtenAt + options.ramTtl }
        simp only [CacheBounds.step, if_neg (not_not.mpr hgen)]
        rw [ram_set (uncapped options) s.cache weather userId action value hgen]
        have hram := ram_set options s.cache weather userId action value hgen
        rw [← hram] at horder htrims
        exact ⟨⟨horder, htrims.bound⟩, htrims⟩
      · have hdropped : ∀ options, s.cache.set options weather userId action value
            (seenGen.getD s.cache.gen) = s.cache := fun _ => if_pos hgen
        simp only [CacheBounds.step, if_pos hgen, hdropped]
        exact ⟨⟨h.order, h.bound⟩, .refl h.bound⟩
  | invalidate weather userId =>
      have hafter : Kept options { s with cache := s.cache.invalidate weather userId } :=
        h.sublist (invalidate_sublist s.cache weather userId)
      exact ⟨hafter, .refl hafter.bound⟩
  | invalidateLocalRam userId =>
      have hafter : Kept options { s with cache := s.cache.invalidateLocalRam userId } :=
        h.sublist (invalidateLocalRam_sublist s.cache userId)
      exact ⟨hafter, .refl hafter.bound⟩

/-! ## Reading -/

theorem storeGet_spec {store : List (String × StoreEntry)} {key text : String} {now : Int}
    (h : AclCacheService.storeGet store key now = some text) :
    ∃ entry, store.lookup key = some entry ∧ now < entry.exp ∧ entry.value = text := by
  unfold AclCacheService.storeGet at h
  split at h
  next entry hentry =>
    split at h
    next hfresh => exact ⟨entry, hentry, hfresh, Option.some.inj h⟩
    next => cases h
  next => cases h

/-- What the shared store answers is the value of an entry that has not expired. -/
theorem getStored_fresh {options : AclCacheOptions} {cache : AclCacheService} {weather : CacheWeather}
    {key : String} {v : Bool} (h : (cache.getStored options weather key).1 = some v) :
    ∃ store entry, cache.store = some store ∧ store.lookup key = some entry ∧
      weather.promotedAt < entry.exp ∧ entry.value = decisionText v := by
  unfold AclCacheService.getStored at h
  split at h
  · cases h
  next store hstore =>
    split at h
    · split at h
      next cached hcached =>
        obtain ⟨entry, hentry, hfresh, hvalue⟩ := storeGet_spec hcached
        split at h
        next htext =>
          refine ⟨store, entry, hstore, hentry, hfresh, ?_⟩
          have hv : (cached == "1") = v := Option.some.inj h
          rw [hvalue, ← hv]
          rcases htext with rfl | rfl <;> rfl
        next => cases h
      next => cases h
    · cases h

/-- A `get` answers with an entry of the memory tier, or else of the shared store, that has not
expired. -/
theorem get_fresh {options : AclCacheOptions} {cache : AclCacheService} {weather : CacheWeather}
    {userId action : String} {v : Bool} (h : (cache.get options weather userId action).1 = some v) :
    (∃ entry, cache.ram.lookup (cacheKey userId action) = some entry ∧ weather.readAt < entry.exp ∧
        entry.v = v) ∨
      ∃ store entry, cache.store = some store ∧ store.lookup (cacheKey userId action) = some entry ∧
        weather.promotedAt < entry.exp ∧ entry.value = decisionText v := by
  unfold AclCacheService.get at h
  dsimp only at h
  split at h
  next entry hentry =>
    split at h
    next hfresh => exact .inl ⟨entry, hentry, hfresh, Option.some.inj h⟩
    next =>
      obtain ⟨store, entry, hstore, hrest⟩ := getStored_fresh h
      exact .inr ⟨store, entry, hstore, hrest⟩
  next => exact .inr (getStored_fresh h)

/-! ## Invalidating one user -/

theorem toList_cacheKey (userId action : String) :
    (cacheKey userId action).toList = "acl/".toList ++ (userId.toList ++ '/' :: action.toList) := by
  unfold cacheKey
  simp only [String.toList_append, List.append_assoc]
  rfl

theorem toList_keyPrefix (userId : String) :
    ("acl/" ++ template (some userId) ++ "/").toList = "acl/".toList ++ (userId.toList ++ ['/']) := by
  simp only [String.toList_append, List.append_assoc]
  rfl

/-- What stands before the first slash is the user. -/
theorem eq_of_prefix_slash {us vs rest : List Char} (hu : '/' ∉ us) (hv : '/' ∉ vs)
    (h : us ++ ['/'] <+: vs ++ '/' :: rest) : us = vs := by
  induction us generalizing vs with
  | nil =>
      cases vs with
      | nil => rfl
      | cons v vs =>
          have hhead : '/' = v := (List.cons_prefix_cons.mp h).1
          exact absurd (hhead ▸ List.mem_cons_self) hv
  | cons u us ih =>
      cases vs with
      | nil =>
          have hhead : u = '/' := (List.cons_prefix_cons.mp h).1
          exact absurd (hhead ▸ List.mem_cons_self) hu
      | cons v vs =>
          obtain ⟨rfl, htail⟩ := List.cons_prefix_cons.mp h
          exact congrArg (u :: ·)
            (ih (fun hmem => hu (.tail _ hmem)) (fun hmem => hv (.tail _ hmem)) htail)

theorem startsWith_own (userId action : String) :
    startsWith (cacheKey userId action) ("acl/" ++ template (some userId) ++ "/") = true := by
  unfold startsWith
  rw [List.isPrefixOf_iff_prefix, toList_cacheKey, toList_keyPrefix]
  exact ⟨action.toList, by simp⟩

theorem startsWith_other {u v : String} (hu : '/' ∉ u.toList) (hv : '/' ∉ v.toList) (hne : v ≠ u)
    (action : String) : startsWith (cacheKey v action) ("acl/" ++ template (some u) ++ "/") = false := by
  unfold startsWith
  rw [Bool.eq_false_iff, Ne, List.isPrefixOf_iff_prefix, toList_cacheKey, toList_keyPrefix,
    List.prefix_append_right_inj]
  exact fun hstart => hne (String.toList_inj.mp (eq_of_prefix_slash hu hv hstart)).symm

theorem ram_invalidateLocalRam (cache : AclCacheService) {u : String} (hu : u ≠ "") :
    (cache.invalidateLocalRam (some u)).ram =
      cache.ram.filter fun e => !startsWith e.1 ("acl/" ++ template (some u) ++ "/") := by
  have htruthy : truthyText (some u) = true := bne_iff_ne.mpr hu
  exact if_pos htruthy

/-- The entry was written under the user. -/
def writtenUnder (userId : String) (entry : String × RamEntry) : Bool :=
  startsWith entry.1 ("acl/" ++ template (some userId) ++ "/")

theorem writtenUnder_iff (userId : String) (entry : String × RamEntry) :
    writtenUnder userId entry = true ↔ ∃ action, entry.1 = cacheKey userId action := by
  constructor
  · intro h
    obtain ⟨rest, hrest⟩ := List.isPrefixOf_iff_prefix.mp h
    refine ⟨String.ofList rest, String.toList_inj.mp ?_⟩
    rw [← hrest, toList_cacheKey, toList_keyPrefix, String.toList_ofList]
    simp
  · rintro ⟨action, haction⟩
    rw [writtenUnder, haction]
    exact startsWith_own userId action

/-- No entry of the user is left. -/
theorem invalidateLocalRam_own (cache : AclCacheService) {u : String} (hu : u ≠ "") :
    (cache.invalidateLocalRam (some u)).ram.filter (writtenUnder u) = [] := by
  rw [ram_invalidateLocalRam cache hu, List.filter_filter, List.filter_eq_nil_iff]
  intro e _
  rw [writtenUnder, Bool.and_not_self]
  exact Bool.false_ne_true

/-- The entries of another user stay, in the order they had. -/
theorem invalidateLocalRam_other (cache : AclCacheService) {u v : String} (hu : u ≠ "")
    (huslash : '/' ∉ u.toList) (hvslash : '/' ∉ v.toList) (hne : v ≠ u) :
    (cache.invalidateLocalRam (some u)).ram.filter (writtenUnder v) =
      cache.ram.filter (writtenUnder v) := by
  rw [ram_invalidateLocalRam cache hu, List.filter_filter]
  refine List.filter_congr fun e _ => ?_
  cases hv : writtenUnder v e with
  | false => rfl
  | true =>
      obtain ⟨action, haction⟩ := (writtenUnder_iff v e).mp hv
      rw [haction, startsWith_other huslash hvslash hne]
      rfl

/-! ## Every run -/

/-- A service that was just made, with the shared store it found, after the calls. -/
def recorded (options : AclCacheOptions) (store : Option (List (String × StoreEntry)))
    (calls : List Call) : Recorded := run (step options) { cache := { store } } calls

theorem kept_recorded {options : AclCacheOptions} (hcap : 1 ≤ options.ramCap)
    (store : Option (List (String × StoreEntry))) (calls : List Call) :
    Kept options (recorded options store calls) := by
  refine run_invariant (fun s call h => (h.step hcap call).1) ⟨inOrder_nil _, ?_⟩ calls
  have hzero : (0 : Int) ≤ options.ramCap := by omega
  exact hzero

/-- **The memory tier is bounded, ordered and fresh.**  After any run of calls the memory tier is within
its cap; what the next call evicts, whatever it is, was written before all that stays, and no more goes
than the cap asks for; a `get` answers with no entry that has expired; and invalidating a user removes
exactly the entries of that user. -/
theorem ram_bounded_and_recent {options : AclCacheOptions} (hcap : 1 ≤ options.ramCap)
    (store : Option (List (String × StoreEntry))) (calls : List Call) :
    ((recorded options store calls).cache.ram.length : Int) ≤ options.ramCap ∧
      InOrder (recorded options store calls).writes (recorded options store calls).cache.ram ∧
      (∀ call, Trims options.ramCap (step options (recorded options store calls) call).writes
        (step (uncapped options) (recorded options store calls) call).cache.ram
        (step options (recorded options store calls) call).cache.ram) ∧
      (∀ weather userId action v,
        ((recorded options store calls).cache.get options weather userId action).1 = some v →
        (∃ entry, (recorded options store calls).cache.ram.lookup (cacheKey userId action) = some entry ∧
          weather.readAt < entry.exp ∧ entry.v = v) ∨
        ∃ shared entry, (recorded options store calls).cache.store = some shared ∧
          shared.lookup (cacheKey userId action) = some entry ∧ weather.promotedAt < entry.exp ∧
          entry.value = decisionText v) ∧
      (∀ u, u ≠ "" →
        ((recorded options store calls).cache.invalidateLocalRam (some u)).ram.filter (writtenUnder u) =
          [] ∧
        ('/' ∉ u.toList → ∀ v, '/' ∉ v.toList → v ≠ u →
          ((recorded options store calls).cache.invalidateLocalRam (some u)).ram.filter
              (writtenUnder v) =
            (recorded options store calls).cache.ram.filter (writtenUnder v))) := by
  have hkept := kept_recorded hcap store calls
  refine ⟨hkept.bound, hkept.order, fun call => (hkept.step hcap call).2,
    fun weather userId action v h => get_fresh h, fun u hu => ⟨invalidateLocalRam_own _ hu, ?_⟩⟩
  exact fun huslash v hvslash hne => invalidateLocalRam_other _ hu huslash hvslash hne

/-- Three slots and four writes, one of them a second write of the first key. -/
theorem ram_bounded_and_recent_three :
    (1 : Int) ≤ AclCacheOptions.ramCap { maxRamEntries := some 3 } ∧
      ((recorded { maxRamEntries := some 3 } none [.set {} "u" "a" true none, .set {} "u" "b" true none,
        .set {} "u" "c" true none, .set {} "u" "a" false none,
        .set {} "u" "d" true none]).cache.ram.length : Int) ≤ 3 ∧
      (recorded { maxRamEntries := some 3 } none [.set {} "u" "a" true none, .set {} "u" "b" true none,
        .set {} "u" "c" true none, .set {} "u" "a" false none,
        .set {} "u" "d" true none]).cache.ram.map Prod.fst = ["acl/u/c", "acl/u/a", "acl/u/d"] :=
  ⟨by decide, (@ram_bounded_and_recent { maxRamEntries := some 3 } (by decide) none _).1,
    by decide +kernel⟩

end NestAmqp.Acl.CacheBounds
