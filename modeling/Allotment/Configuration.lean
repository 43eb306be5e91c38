import Allotment.Alignment
import Allotment.Failure
set_option autoImplicit false

/-!
# Configuration

The one parameter of a memory context is the capacity of its arena. Any
capacity but zero is accepted; one that is no multiple of 8 is backed by whole
units, whose tail past the last multiple of 8 no grant can reach.
-/

namespace Allotment

open Text

/-- The parameters of a memory context. -/
structure Configuration where
  /-- The capacity of the arena, in bytes. -/
  capacity : UInt64 := 8192
  deriving DecidableEq

namespace Configuration

/-- The configuration of a context for which nothing else was asked. -/
def default : Configuration := {}

/-- The number of 8-byte units that back the arena. -/
def units (config : Configuration) : UInt64 :=
  unitsFor config.capacity

/-- Refuses a configuration that leaves no room for any byte. -/
def validate (config : Configuration) : Except ConfigurationError Unit :=
  if config.capacity = 0 then .error .zeroCapacity else .ok ()

def shape (config : Configuration) : Shape :=
  .group "ArenaConfig" .braces [.labelled "capacity" (.number config.capacity.toNat)]

end Configuration

end Allotment
