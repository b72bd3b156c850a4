/-
KaizenStation.Firmware.OfflineEventStore — the bounded, coalescing RAM
buffer of `storage/OfflineEventStore.cpp`.

The mutex is the handle `xSemaphoreCreateMutex` returned. A take with
`portMAX_DELAY` on a handle that exists always succeeds, so `lock` answers
whether the handle exists, and every operation of a store without one takes
its failure branch. `std::size_t` is 32 bits wide on the ESP32-S3, which is
the width of the counter `coalesced`; `capacity` is only compared and
`events` is only as long as memory allows, so both stay unbounded here.
-/
import KaizenStation.Firmware.Event

namespace KaizenStation.Firmware

structure OfflineEventStore where
  capacity : Nat
  events : List Event := []
  coalesced : UInt32 := 0
  mutex : Bool := true
  deriving DecidableEq, Repr

namespace OfflineEventStore

/-- `SYSTEM_SOURCE_ID`: heartbeats, faults and sync requests. -/
def SYSTEM_SOURCE_ID : UInt32 := 0

/-- `OfflineEventStore::OfflineEventStore`; `mutex` is whether
`xSemaphoreCreateMutex` returned a handle. -/
def create (capacity : Nat) (mutex : Bool := true) : OfflineEventStore :=
  { capacity := capacity, mutex := mutex }

def lock (s : OfflineEventStore) : Bool := s.mutex

/-- The buffered event the loop of `push` finds: the first one carrying the
new event's source, unless that is the system source. -/
def supersededBy (s : OfflineEventStore) (event : Event) : Option Event :=
  if event.sourceId ≠ SYSTEM_SOURCE_ID then
    s.events.find? (fun it => it.sourceId == event.sourceId)
  else none

/-- The loop of `push`: erase the first match, count it, `break`. -/
def coalesce (s : OfflineEventStore) (event : Event) : OfflineEventStore :=
  match s.supersededBy event with
  | some _ =>
    { s with
      events := s.events.eraseP (fun it => it.sourceId == event.sourceId)
      coalesced := s.coalesced + 1 }
  | none => s

/-- `OfflineEventStore::push`. The capacity test follows the erasure. -/
def push (s : OfflineEventStore) (event : Event) : OfflineEventStore × Bool :=
  if !s.lock then (s, false)
  else
    let s := s.coalesce event
    if s.events.length ≥ s.capacity then (s, false)
    else ({ s with events := s.events ++ [event] }, true)

/-- `OfflineEventStore::pop`; `none` is the answer false. -/
def pop (s : OfflineEventStore) : OfflineEventStore × Option Event :=
  if !s.lock then (s, none)
  else
    match s.events with
    | [] => (s, none)
    | event :: rest => ({ s with events := rest }, some event)

/-- `OfflineEventStore::peek`. -/
def peek (s : OfflineEventStore) : Option Event :=
  if !s.lock then none else s.events.head?

/-- `OfflineEventStore::clear`. -/
def clear (s : OfflineEventStore) : OfflineEventStore :=
  if !s.lock then s else { s with events := [], coalesced := 0 }

/-- `OfflineEventStore::size`. -/
def size (s : OfflineEventStore) : Nat :=
  if !s.lock then 0 else s.events.length

/-- `OfflineEventStore::empty`. -/
def empty (s : OfflineEventStore) : Bool :=
  if !s.lock then true else s.events.isEmpty

/-- `OfflineEventStore::coalescedCount`. -/
def coalescedCount (s : OfflineEventStore) : UInt32 :=
  if !s.lock then 0 else s.coalesced

end OfflineEventStore

end KaizenStation.Firmware
