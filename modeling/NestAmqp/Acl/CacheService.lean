/-
# NestAmqp.Acl.CacheService — the two tiers of the decision cache.

`AclCacheService`: a bounded map in memory before an optional shared store, both from a text key to a
decision.  An entry of either tier expires; the memory tier evicts its oldest entries past its cap; the
store may fail to be read or written, which is logged and otherwise a miss.  `Caches` says that a
decision is in one of the tiers; the lemmas say what each operation can do to it.
-/
import NestAmqp.Js.Value

namespace NestAmqp.Acl

open NestAmqp.Js NestAmqp.Lib

/-- `AclCacheOptions`. -/
structure AclCacheOptions where
  ramTtlMs : Option Int := none
  l2TtlSec : Option Int := none
  maxRamEntries : Option Int := none

namespace AclCacheOptions

variable (options : AclCacheOptions)

def ramTtl : Int := options.ramTtlMs.getD 30000
def l2Ttl : Int := options.l2TtlSec.getD 600
def ramCap : Int := options.maxRamEntries.getD 50000

end AclCacheOptions

/-- `RamEntry`. -/
structure RamEntry where
  v : Bool
  exp : Int
  deriving DecidableEq, Repr

/-- An entry of the shared store: a text, and when it expires. -/
structure StoreEntry where
  value : String
  exp : Int
  deriving DecidableEq, Repr

/-- The state of the service: the memory tier in insertion order, the invalidation counter, and the
shared store when one is provided. -/
structure AclCacheService where
  ram : List (String × RamEntry) := []
  gen : Nat := 0
  store : Option (List (String × StoreEntry)) := none

/-- `text.startsWith(start)`. -/
def startsWith (text start : String) : Bool := start.toList.isPrefixOf text.toList

/-- The glob patterns of `invalidate` end in a star: the keys that start with the rest. -/
def globKeys (pattern key : String) : Bool := pattern.toList.dropLast.isPrefixOf key.toList

/-- What one call meets: the readings of the clock on its way, whether the shared store can be read and
written, and which keys it finds for a pattern. -/
structure CacheWeather where
  readAt : Int := 0
  promotedAt : Int := 0
  writtenAt : Int := 0
  storeReads : Bool := true
  storeWrites : Bool := true
  storeKeys : String → String → Bool := globKeys

/-- `key(userId, action)`. -/
def cacheKey (userId action : String) : String := "acl/" ++ userId ++ "/" ++ action

/-- `'1'` and `'0'`. -/
def decisionText (value : Bool) : String := if value then "1" else "0"

/-- `map.delete(key)`. -/
def mapDelete {β : Type} (map : List (String × β)) (key : String) : List (String × β) :=
  map.filter fun entry => entry.1 != key

/-- The `while` loop of `ramSet`: drop from the front until the cap holds. -/
def evict (cap : Int) : List (String × RamEntry) → List (String × RamEntry)
  | [] => []
  | entry :: ram => if (ram.length : Int) + 1 > cap then evict cap ram else entry :: ram

namespace AclCacheService

variable (options : AclCacheOptions)

/-- `ramSet`: a refreshed key goes to the tail; a cap that is not positive is none. -/
def ramSet (cache : AclCacheService) (key : String) (entry : RamEntry) : AclCacheService :=
  let ram := mapDelete cache.ram key ++ [(key, entry)]
  { cache with ram := if options.ramCap > 0 then evict options.ramCap ram else ram }

/-- `this.store.get(key)`: expired entries read as missing. -/
def storeGet (store : List (String × StoreEntry)) (key : String) (now : Int) : Option String :=
  match store.lookup key with
  | some entry => if entry.exp > now then some entry.value else none
  | none => none

/-- The second tier of `get`: a decision found there is promoted to the first. -/
def getStored (cache : AclCacheService) (weather : CacheWeather) (key : String) :
    Option Bool × AclCacheService :=
  match cache.store with
  | none => (none, cache)
  | some store =>
      if weather.storeReads then
        match storeGet store key weather.promotedAt with
        | some cached =>
            -- any other text under the key is a miss
            if cached = "1" ∨ cached = "0" then
              let value := cached == "1"
              (some value,
                cache.ramSet options key { v := value, exp := weather.promotedAt + options.ramTtl })
            else (none, cache)
        | none => (none, cache)
      else (none, cache)

/-- `get`: the memory tier, where an expired entry is deleted, then the store. -/
def get (cache : AclCacheService) (weather : CacheWeather) (userId action : String) :
    Option Bool × AclCacheService :=
  let key := cacheKey userId action
  match cache.ram.lookup key with
  | some entry =>
      if entry.exp > weather.readAt then (some entry.v, cache)
      else { cache with ram := mapDelete cache.ram key }.getStored options weather key
  | none => cache.getStored options weather key

/-- `set`: dropped when the cache was invalidated since `seenGen`. -/
def set (cache : AclCacheService) (weather : CacheWeather) (userId action : String) (value : Bool)
    (seenGen : Nat) : AclCacheService :=
  if seenGen ≠ cache.gen then cache
  else
    let key := cacheKey userId action
    let cache := cache.ramSet options key { v := value, exp := weather.writtenAt + options.ramTtl }
    match cache.store with
    | none => cache
    | some store =>
        -- the generation is not tested again before the second tier is written
        if weather.storeWrites then
          let entry : StoreEntry :=
            { value := decisionText value, exp := weather.writtenAt + options.l2Ttl * 1000 }
          { cache with store := some (mapDelete store key ++ [(key, entry)]) }
        else cache

/-- `invalidateLocalRam`: one user's entries of the memory tier, or all of them. -/
def invalidateLocalRam (cache : AclCacheService) (userId : Option String) : AclCacheService :=
  { cache with
    gen := cache.gen + 1
    ram :=
      if truthyText userId then
        cache.ram.filter fun entry => !startsWith entry.1 ("acl/" ++ template userId ++ "/")
      else [] }

/-- `invalidate`: both tiers.  A store that cannot be reached keeps its entries. -/
def invalidate (cache : AclCacheService) (weather : CacheWeather) (userId : Option String) :
    AclCacheService :=
  let cache := cache.invalidateLocalRam userId
  let pattern := if truthyText userId then "acl/" ++ template userId ++ "/*" else "acl/*"
  { cache with
    store := cache.store.map fun store => store.filter fun entry => !weather.storeKeys pattern entry.1 }

end AclCacheService

/-! ## What the cache holds -/

/-- A decision is in one of the tiers. -/
def AclCacheService.Caches (cache : AclCacheService) (key : String) (value : Bool) : Prop :=
  (∃ exp, (key, { v := value, exp }) ∈ cache.ram) ∨
    ∃ store exp, cache.store = some store ∧ (key, { value := decisionText value, exp }) ∈ store

theorem decisionText_inj {a b : Bool} (h : decisionText a = decisionText b) : a = b := by
  revert a b
  decide

theorem lookup_cons {β : Type} (k key : String) (b : β) (map : List (String × β)) :
    ((k, b) :: map).lookup key = if key = k then some b else map.lookup key := by
  rw [List.lookup_cons]
  by_cases h : key = k
  · simp [h]
  · rw [beq_eq_false_iff_ne.mpr h, if_neg h]

theorem mem_of_mem_evict {cap : Int} {ram : List (String × RamEntry)} {entry : String × RamEntry}
    (h : entry ∈ evict cap ram) : entry ∈ ram := by
  induction ram with
  | nil => exact h
  | cons head ram ih =>
      unfold evict at h
      split at h
      · exact .tail _ (ih h)
      · exact h

namespace AclCacheService

variable {options : AclCacheOptions} {cache : AclCacheService} {weather : CacheWeather}
  {userId action key : String} {value : Bool}

/-- `ramSet` adds one entry. -/
theorem mem_ramSet {entry : RamEntry} {e : String × RamEntry}
    (h : e ∈ (cache.ramSet options key entry).ram) : e ∈ cache.ram ∨ e = (key, entry) := by
  unfold ramSet at h
  dsimp only at h
  have hmem : e ∈ mapDelete cache.ram key ++ [(key, entry)] := by
    split at h
    · exact mem_of_mem_evict h
    · exact h
  rcases List.mem_append.mp hmem with hold | hnew
  · exact .inl (List.mem_filter.mp hold).1
  · exact .inr (List.mem_singleton.mp hnew)

theorem caches_of_ramSet {k : String} {v : Bool} {entry : RamEntry}
    (h : (cache.ramSet options key entry).Caches k v) : cache.Caches k v ∨ (k = key ∧ v = entry.v) := by
  rcases h with ⟨exp, hmem⟩ | hstore
  · rcases mem_ramSet hmem with hold | hnew
    · exact .inl (.inl ⟨exp, hold⟩)
    · cases hnew
      exact .inr ⟨rfl, rfl⟩
  · exact .inl (.inr hstore)

/-- The store tier returns what is cached, and caches nothing new. -/
theorem getStored_spec (options : AclCacheOptions) (cache : AclCacheService) (weather : CacheWeather)
    (key : String) :
    (∀ v, (cache.getStored options weather key).1 = some v → cache.Caches key v) ∧
      (∀ k v, (cache.getStored options weather key).2.Caches k v → cache.Caches k v) ∧
      (cache.getStored options weather key).2.gen = cache.gen := by
  have hmiss : (∀ v, (none : Option Bool) = some v → cache.Caches key v) ∧
      (∀ k v, cache.Caches k v → cache.Caches k v) ∧ cache.gen = cache.gen :=
    ⟨nofun, fun _ _ h => h, rfl⟩
  unfold getStored
  split
  · exact hmiss
  next store hstore =>
    split
    · split
      next cached hcached =>
        split
        next htext =>
          have hfound : cache.Caches key (cached == "1") := by
            unfold storeGet at hcached
            split at hcached
            next entry hentry =>
              split at hcached
              · have hvalue : entry.value = decisionText (cached == "1") := by
                  rw [Option.some.inj hcached]
                  rcases htext with rfl | rfl <;> rfl
                have hmem := AssocList.mem_of_lookup hentry
                refine .inr ⟨store, entry.exp, hstore, ?_⟩
                rw [← hvalue]
                exact hmem
              · cases hcached
            · cases hcached
          refine ⟨fun v hv => ?_, fun k v h => ?_, rfl⟩
          · rw [← Option.some.inj hv]
            exact hfound
          · rcases caches_of_ramSet h with hold | ⟨rfl, rfl⟩
            · exact hold
            · exact hfound
        · exact hmiss
      · exact hmiss
    · exact hmiss

theorem Caches.of_delete {k : String} {v : Bool}
    (h : Caches { cache with ram := mapDelete cache.ram key } k v) : cache.Caches k v := by
  rcases h with ⟨exp, hmem⟩ | hstore
  · exact .inl ⟨exp, (List.mem_filter.mp hmem).1⟩
  · exact .inr hstore

/-- **Reading.**  A hit is a cached decision, and reading caches nothing new. -/
theorem get_spec (options : AclCacheOptions) (cache : AclCacheService) (weather : CacheWeather)
    (userId action : String) :
    (∀ v, (cache.get options weather userId action).1 = some v →
        cache.Caches (cacheKey userId action) v) ∧
      (∀ k v, (cache.get options weather userId action).2.Caches k v → cache.Caches k v) ∧
      (cache.get options weather userId action).2.gen = cache.gen := by
  unfold get
  dsimp only
  split
  next entry hentry =>
    split
    · refine ⟨fun v hv => ?_, fun _ _ h => h, rfl⟩
      have hmem := AssocList.mem_of_lookup hentry
      rw [← Option.some.inj hv]
      exact .inl ⟨entry.exp, hmem⟩
    · obtain ⟨hhit, hkeep, hgen⟩ := getStored_spec options
        { cache with ram := mapDelete cache.ram (cacheKey userId action) } weather
        (cacheKey userId action)
      exact ⟨fun v hv => (hhit v hv).of_delete, fun k v h => (hkeep k v h).of_delete, hgen⟩
  · exact getStored_spec options cache weather _

/-- **Writing.**  It caches the decision it is given, and nothing else. -/
theorem caches_of_set {k : String} {v : Bool} {seenGen : Nat}
    (h : (cache.set options weather userId action value seenGen).Caches k v) :
    cache.Caches k v ∨ (k = cacheKey userId action ∧ v = value) := by
  unfold set at h
  split at h
  · exact .inl h
  · dsimp only at h
    split at h
    · exact caches_of_ramSet h
    next store hstore =>
      split at h
      · rcases h with hram | ⟨store', exp, hstore', hmem⟩
        · exact caches_of_ramSet (.inl hram)
        · obtain rfl := Option.some.inj hstore'
          rcases List.mem_append.mp hmem with hold | hnew
          · exact .inl (.inr ⟨store, exp, hstore, (List.mem_filter.mp hold).1⟩)
          · have hpair := List.mem_singleton.mp hnew
            rw [Prod.mk.injEq, StoreEntry.mk.injEq] at hpair
            exact .inr ⟨hpair.1, decisionText_inj hpair.2.1⟩
      · exact caches_of_ramSet h

theorem Caches.of_invalidateLocalRam {k : String} {v : Bool} {userId : Option String}
    (h : (cache.invalidateLocalRam userId).Caches k v) : cache.Caches k v := by
  rcases h with ⟨exp, hmem⟩ | hstore
  · unfold invalidateLocalRam at hmem
    dsimp only at hmem
    split at hmem
    · exact .inl ⟨exp, (List.mem_filter.mp hmem).1⟩
    · cases hmem
  · exact .inr hstore

/-- **Invalidating.**  It only removes. -/
theorem Caches.of_invalidate {k : String} {v : Bool} {userId : Option String}
    (h : (cache.invalidate weather userId).Caches k v) : cache.Caches k v := by
  rcases h with hram | ⟨store, exp, hstore, hmem⟩
  · exact Caches.of_invalidateLocalRam (.inl hram)
  · obtain ⟨old, hold, rfl⟩ := Option.map_eq_some_iff.mp hstore
    exact .inr ⟨old, exp, hold, (List.mem_filter.mp hmem).1⟩

end AclCacheService

end NestAmqp.Acl
