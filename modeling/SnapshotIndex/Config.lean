/-!
# Configuration

How large a new index starts out and how full the table of a bag may get.
-/

namespace SnapshotIndex

/-- Sizing of new indexes. -/
structure Config where
  /-- How many elements a new bag takes in before its table grows. -/
  bagCapacity : Nat := 16
  /-- How many elements a new sorted index is expected to hold. -/
  sortedCapacity : Nat := 16
  /-- The share of a bag's table, in percent, that elements and removal
  markers may fill. -/
  loadPercent : Nat := 50
deriving DecidableEq

/-- What is wrong with a configuration. -/
inductive ConfigFault
  /-- The load share lies outside the accepted range. -/
  | loadOutOfRange (percent : Nat)
deriving DecidableEq

namespace Config

def minLoad : Nat := 10

/-- The highest accepted load share: probing needs free slots. -/
def maxLoad : Nat := 90

/-- Accepts a configuration with a load share in range. -/
def validate (c : Config) : Except ConfigFault Unit :=
  if minLoad ≤ c.loadPercent ∧ c.loadPercent ≤ maxLoad then .ok ()
  else .error (.loadOutOfRange c.loadPercent)

end Config

def ConfigFault.message : ConfigFault → String
  | .loadOutOfRange percent =>
    "max_load_percent must be between " ++ toString Config.minLoad ++ " and "
      ++ toString Config.maxLoad ++ ", got " ++ toString percent

end SnapshotIndex
