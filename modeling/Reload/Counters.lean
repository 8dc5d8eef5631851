/-!
The counters of a loader. They have 64 bits and wrap.
-/

namespace Reload

/-- What is counted. -/
inductive Counter where
  | definitions
  | definitionFailures
  /-- Definitions that removed an entry of their name. -/
  | redefinitions
  | cacheHits
  /-- Resolutions refused because the thread is defining the name. -/
  | guardedMisses
  /-- Dead entries removed by publishing. -/
  | entriesSwept
  deriving DecidableEq

structure Counters where
  definitions : UInt64 := 0
  definitionFailures : UInt64 := 0
  redefinitions : UInt64 := 0
  cacheHits : UInt64 := 0
  guardedMisses : UInt64 := 0
  entriesSwept : UInt64 := 0
  deriving DecidableEq

namespace Counters

def get (counters : Counters) : Counter → UInt64
  | .definitions => counters.definitions
  | .definitionFailures => counters.definitionFailures
  | .redefinitions => counters.redefinitions
  | .cacheHits => counters.cacheHits
  | .guardedMisses => counters.guardedMisses
  | .entriesSwept => counters.entriesSwept

def add (counters : Counters) (counter : Counter) (amount : UInt64) : Counters :=
  match counter with
  | .definitions => { counters with definitions := counters.definitions + amount }
  | .definitionFailures =>
    { counters with definitionFailures := counters.definitionFailures + amount }
  | .redefinitions => { counters with redefinitions := counters.redefinitions + amount }
  | .cacheHits => { counters with cacheHits := counters.cacheHits + amount }
  | .guardedMisses => { counters with guardedMisses := counters.guardedMisses + amount }
  | .entriesSwept => { counters with entriesSwept := counters.entriesSwept + amount }

/-- Only the counter that grows changes, and it wraps at 64 bits. -/
theorem get_add (counters : Counters) (counter other : Counter) (amount : UInt64) :
    (counters.add counter amount).get other =
      if other = counter then counters.get other + amount else counters.get other := by
  cases counter <;> cases other <;> rfl

end Counters

end Reload
