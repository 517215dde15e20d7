import XFoilFoam.Foundations.Table
import XFoilFoam.Foundations.KeyOrder
import Mathlib.Logic.Function.Basic

/-! `StaleWhileRefreshCache`.  An entry is an object that the map and the continuations of a load share, so the state keeps
the map, the objects and the loads whose continuations have not run. -/
namespace XFoilFoam.Caches
open KeyOrder
set_option autoImplicit false

/-! ## State -/

/-- A missing field is `undefined`; a promise is named by the count of refreshes at its start. -/
structure CacheEntry (T : Type) where
  value : Option T := none
  asOfMs : Option ℤ := none
  lastAccessMs : ℤ := 0
  refreshPromise : Option ℕ := none
  lastError : Option String := none

structure CacheOptions where
  ttlMs : ℤ
  maxEntries : ℕ
  ttlMs_pos : 0 < ttlMs
  maxEntries_pos : 0 < maxEntries

structure StaleWhileRefreshValue (T : Type) where
  value : T
  asOf : ℤ
  stale : Bool
  refreshing : Bool
  lastError : Option String

structure StaleWhileRefreshStats where
  hits : ℕ
  misses : ℕ
  staleHits : ℕ
  refreshes : ℕ
  size : ℕ

/-- What the continuations of one load capture. -/
structure Refresh where
  key : String
  entry : ℕ

structure StaleWhileRefreshCache (T : Type) where
  entries : Table String ℕ := .empty
  objects : ℕ → CacheEntry T := fun _ => {}
  allocated : ℕ := 0
  loads : Table ℕ Refresh := .empty
  hits : ℕ := 0
  misses : ℕ := 0
  staleHits : ℕ := 0
  refreshes : ℕ := 0

/-- How a call of `load` ends: with a promise, or by throwing before it has one. -/
inductive Load where
  | promise
  | throws (message : String)

inductive Answer (T : Type) where
  | value (v : StaleWhileRefreshValue T)
  | fresh
  | awaits (promise : ℕ)
  | thrown (message : String)

def Answer.orValue {T : Type} (started : Answer T) (v : StaleWhileRefreshValue T) : Answer T :=
  match started with
  | .thrown message => .thrown message
  | _ => .value v

namespace StaleWhileRefreshCache
variable {T : Type}

def entryAt (c : StaleWhileRefreshCache T) (key : String) : Option (CacheEntry T) :=
  (c.entries.find? key).map c.objects

def has (c : StaleWhileRefreshCache T) (key : String) : Bool :=
  (c.entryAt key).any fun entry => entry.value.isSome

def stats (c : StaleWhileRefreshCache T) : StaleWhileRefreshStats where
  hits := c.hits
  misses := c.misses
  staleHits := c.staleHits
  refreshes := c.refreshes
  size := c.entries.rows.length

/-- The value and the timestamp that `get` would answer with. -/
def readable (c : StaleWhileRefreshCache T) (key : String) : Option (T × ℤ) := do
  let entry ← c.entryAt key
  let value ← entry.value
  let asOfMs ← entry.asOfMs
  return (value, asOfMs)

def write (c : StaleWhileRefreshCache T) (ref : ℕ) (f : CacheEntry T → CacheEntry T) : StaleWhileRefreshCache T :=
  { c with objects := Function.update c.objects ref (f (c.objects ref)) }

/-! ## `prune` -/

def evictable (c : StaleWhileRefreshCache T) (protectedKey : String) : List (String × CacheEntry T) :=
  (c.entries.rows.map fun r => (r.1, c.objects r.2)).filter fun (key, entry) =>
    key ≠ protectedKey ∧ entry.refreshPromise = none

/-- The loop of `prune`; every turn deletes an entry, so the entries bound the turns. -/
def pruneLoop (options : CacheOptions) (protectedKey : String) :
    ℕ → StaleWhileRefreshCache T → StaleWhileRefreshCache T
  | 0, c => c
  | turns + 1, c =>
    if options.maxEntries < c.entries.rows.length then
      match (sortBy (fun e => e.2.lastAccessMs) (c.evictable protectedKey)).head? with
      | none => c
      | some candidate => pruneLoop options protectedKey turns { c with entries := c.entries.erase candidate.1 }
    else c

def prune (options : CacheOptions) (protectedKey : String) (c : StaleWhileRefreshCache T) :
    StaleWhileRefreshCache T :=
  pruneLoop options protectedKey c.entries.rows.length c

/-! ## Refreshes -/

/-- `this.entries.get(key) ?? {lastAccessMs: now, lastError: null}`: the object is not in the map yet. -/
def lookup (c : StaleWhileRefreshCache T) (key : String) (now : ℤ) : StaleWhileRefreshCache T × ℕ :=
  match c.entries.find? key with
  | some ref => (c, ref)
  | none =>
    ({ c with objects := Function.update c.objects c.allocated { lastAccessMs := now }
              allocated := c.allocated + 1 }, c.allocated)

def mark (c : StaleWhileRefreshCache T) (key : String) (ref : ℕ) : StaleWhileRefreshCache T :=
  let c := { c with loads := c.loads.set c.refreshes ⟨key, ref⟩ }
  let c := c.write ref fun entry => { entry with refreshPromise := some c.refreshes }
  { c with entries := c.entries.set key ref }

/-- `startRefresh`; `load` runs to its first pause before the entry is marked. -/
def startRefresh (options : CacheOptions) (c : StaleWhileRefreshCache T) (key : String) (now : ℤ) (load : Load) :
    StaleWhileRefreshCache T × Answer T :=
  let (c, ref) := c.lookup key now
  let c := c.write ref fun entry => { entry with lastAccessMs := now }
  match (c.objects ref).refreshPromise with
  | some promise => (c, .awaits promise)
  | none =>
    let c := { c with refreshes := c.refreshes + 1 }
    match load with
    | .throws message => (c, .thrown message)
    | .promise => (prune options key (c.mark key ref), .awaits c.refreshes)

/-- The value of a load reaches its entry, which returns to the map under its key. -/
def land (c : StaleWhileRefreshCache T) (promise : ℕ) (load : Refresh) (value : Option T) (now : ℤ) :
    StaleWhileRefreshCache T :=
  let c := { c with loads := c.loads.erase promise }
  let c := c.write load.entry fun _ =>
    { value := value, asOfMs := some now, lastAccessMs := now, refreshPromise := none, lastError := none }
  { c with entries := c.entries.set load.key load.entry }

/-- The continuation of a load that succeeded; the value may be `undefined`. -/
def succeed (options : CacheOptions) (c : StaleWhileRefreshCache T) (promise : ℕ) (value : Option T) (now : ℤ) :
    StaleWhileRefreshCache T :=
  match c.loads.find? promise with
  | none => c
  | some load => prune options load.key (c.land promise load value now)

def release (c : StaleWhileRefreshCache T) (promise : ℕ) (load : Refresh) (error : String) :
    StaleWhileRefreshCache T :=
  let c := { c with loads := c.loads.erase promise }
  c.write load.entry fun entry => { entry with lastError := some error, refreshPromise := none }

/-- The continuation of a load that failed: nothing is pruned here. -/
def fail (c : StaleWhileRefreshCache T) (promise : ℕ) (error : String) : StaleWhileRefreshCache T :=
  match c.loads.find? promise with
  | none => c
  | some load =>
    let c := c.release promise load error
    if (c.objects load.entry).value.isNone then { c with entries := c.entries.erase load.key } else c

/-! ## Calls -/

/-- `get` up to its first pause, with the two readings of the clock it may take. -/
def get (options : CacheOptions) (c : StaleWhileRefreshCache T) (key : String) (now startedAt : ℤ) (load : Load) :
    StaleWhileRefreshCache T × Answer T :=
  match c.entries.find? key, c.readable key with
  | some ref, some (value, asOfMs) =>
    let c := { c with hits := c.hits + 1 }
    let c := c.write ref fun entry => { entry with lastAccessMs := now }
    let stale := decide (options.ttlMs ≤ now - asOfMs)
    let (c, started) :=
      if stale then startRefresh options { c with staleHits := c.staleHits + 1 } key startedAt load else (c, .fresh)
    (c, started.orValue
      { value := value
        asOf := asOfMs
        stale := stale
        refreshing := (c.objects ref).refreshPromise.isSome
        lastError := (c.objects ref).lastError })
  | _, _ => startRefresh options { c with misses := c.misses + 1 } key startedAt load

/-- What a `get` that waited answers once its load has a value. -/
def refreshed (c : StaleWhileRefreshCache T) (key : String) (value : T) (now : ℤ) : StaleWhileRefreshValue T where
  value := value
  asOf := ((c.entryAt key).bind fun entry => entry.asOfMs).getD now
  stale := false
  refreshing := false
  lastError := none

def warm (options : CacheOptions) (c : StaleWhileRefreshCache T) (key : String) (now startedAt : ℤ) (load : Load) :
    StaleWhileRefreshCache T × Answer T :=
  if (c.readable key).any fun (_, asOfMs) => now - asOfMs < options.ttlMs then (c, .fresh)
  else startRefresh options c key startedAt load

/-! ## Runs -/

/-- What can happen to a cache that nobody clears. -/
inductive Event (T : Type) where
  | get (key : String) (now startedAt : ℤ) (load : Load)
  | warm (key : String) (now startedAt : ℤ) (load : Load)
  | succeeded (promise : ℕ) (value : Option T) (now : ℤ)
  | failed (promise : ℕ) (error : String)

def perform (options : CacheOptions) (c : StaleWhileRefreshCache T) : Event T → StaleWhileRefreshCache T
  | .get key now startedAt load => (c.get options key now startedAt load).1
  | .warm key now startedAt load => (c.warm options key now startedAt load).1
  | .succeeded promise value now => c.succeed options promise value now
  | .failed promise error => c.fail promise error

def execute (options : CacheOptions) (events : List (Event T)) : StaleWhileRefreshCache T :=
  events.foldl (perform options) {}

theorem execute_concat (options : CacheOptions) (events : List (Event T)) (event : Event T) :
    execute options (events ++ [event]) = perform options (execute options events) event := by
  simp [execute]

end StaleWhileRefreshCache

end XFoilFoam.Caches
