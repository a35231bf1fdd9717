import DeferredJit.Async.Store
import DeferredJit.Request

/-! The table of compiled handles and its counters. Entries are never removed. -/

set_option autoImplicit false

namespace DeferredJit

structure Cache where
  /-- In the order in which they were made. -/
  entries : List (CacheKey × Async.CellId) := []
  hits : Nat := 0
  misses : Nat := 0
  compilations : Nat := 0
  failures : Nat := 0

namespace Cache

def lookup (cache : Cache) (key : CacheKey) : Option Async.CellId := cache.entries.lookup key

def contains (cache : Cache) (key : CacheKey) : Bool := (cache.lookup key).isSome

def recordHit (cache : Cache) : Cache := { cache with hits := cache.hits + 1 }

/-- A new entry, which is a miss. -/
def insert (cache : Cache) (key : CacheKey) (cell : Async.CellId) : Cache :=
  { cache with entries := cache.entries ++ [(key, cell)], misses := cache.misses + 1 }

theorem lookup_insert (cache : Cache) (key : CacheKey) (cell : Async.CellId) :
    (cache.insert key cell).lookup key = (cache.lookup key).or (some cell) := by
  simp [insert, lookup, List.lookup_append]

theorem lookup_insert_of_ne (cache : Cache) {key other : CacheKey} (cell : Async.CellId)
    (different : other ≠ key) : (cache.insert key cell).lookup other = cache.lookup other := by
  have missed : (other == key) = false := by simp [different]
  simp [insert, lookup, List.lookup_append, List.lookup_cons, missed]

def recordCompilation (cache : Cache) : Cache := { cache with compilations := cache.compilations + 1 }

def recordFailure (cache : Cache) : Cache := { cache with failures := cache.failures + 1 }

def describe (cache : Cache) : String :=
  Text.record "CacheStats" [("entries", toString cache.entries.length),
    ("hits", toString cache.hits), ("misses", toString cache.misses),
    ("compilations", toString cache.compilations), ("failures", toString cache.failures)]

end Cache

end DeferredJit
