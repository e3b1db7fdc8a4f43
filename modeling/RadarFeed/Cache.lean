import RadarFeed.Record
import RadarFeed.Timeline

/-!
The cache of the records of one product.

A record is found at its time, which is a whole second. The first record of a second stays; storing
another one gives the first. Nothing is ever removed.
-/

namespace RadarFeed

/-- The records of one product by their time. -/
structure Cache where
  records : Timeline Record
deriving Inhabited

namespace Cache

/-- The cache without records. -/
def empty : Cache := ⟨.empty⟩

/-- The record at the second of `t`. -/
def get? (c : Cache) (t : Instant) : Option Record :=
  c.records.get? t.truncate

/-- The last record. -/
def latest (c : Cache) : Option Record :=
  c.records.latest

/-- The last record not after `t`. -/
def atOrBefore (c : Cache) (t : Instant) : Option Record :=
  c.records.atOrBefore t

/-- The times of the records in ascending order. -/
def times (c : Cache) : List Instant :=
  c.records.times

/-- The number of records. -/
def size (c : Cache) : Nat :=
  c.records.size

/-- Stores a record unless there is one at its time. -/
def insert (c : Cache) (r : Record) : Cache :=
  ⟨c.records.insertNew r.time r⟩

/-- The record that the cache holds at the time of `r`, or `r` where it holds none. -/
def stored (c : Cache) (r : Record) : Record :=
  (c.records.get? r.time).getD r

/-- A record that is held stays, and one that is stored is held if its time was free. -/
theorem get?_insert (c : Cache) (r : Record) (t : Instant) :
    (c.insert r).get? t = (c.get? t).or (if t.truncate = r.time then some r else none) :=
  c.records.get?_insertNew r.time t.truncate r

end Cache

end RadarFeed
