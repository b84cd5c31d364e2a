import Raceways.Designation

/-!
The messages that a circuit can record. The sign of a message's number is its severity.
-/

namespace Raceways

inductive Severity where
  | error | neutral | warning
  deriving DecidableEq

namespace Severity

def name : Severity → String
  | error => "Error"
  | neutral => "Neutral"
  | warning => "Warning"

instance : Catalog Severity := ⟨[error, neutral, warning], name⟩

/-- Negative numbers are errors, positive ones warnings. -/
def ofNumber (n : Int) : Severity :=
  if n < 0 then error else if n = 0 then neutral else warning

end Severity

inductive Message where
  | invalidLoad
  | setsInSharedConduit
  | setsInSharedBundle
  | noSharedConduit
  | noSharedBundle
  | conduitsOutsidePrivateConduit
  | conductorsInFreeAir
  | conductorsInBundle
  | cableInConduit
  deriving DecidableEq

namespace Message

def all : List Message :=
  [invalidLoad, setsInSharedConduit, setsInSharedBundle, noSharedConduit, noSharedBundle,
    conduitsOutsidePrivateConduit, conductorsInFreeAir, conductorsInBundle, cableInConduit]

def number : Message → Int
  | invalidLoad => -1
  | setsInSharedConduit => -2
  | setsInSharedBundle => -3
  | noSharedConduit => -4
  | noSharedBundle => -5
  | conduitsOutsidePrivateConduit => -6
  | conductorsInFreeAir => 1
  | conductorsInBundle => 2
  | cableInConduit => 3

def text : Message → String
  | invalidLoad => "Load is not valid."
  | setsInSharedConduit =>
    "More than one set of conductors or cables cannot be in a shared conduit."
  | setsInSharedBundle =>
    "More than one set of conductors or cables cannot be in a shared bundle."
  | noSharedConduit => "The shared conduit cannot be null."
  | noSharedBundle => "The shared bundle cannot be null."
  | conduitsOutsidePrivateConduit =>
    "The number of conduits can only be changed in private conduit mode."
  | conductorsInFreeAir => "Insulated conductors in free air is possibly a bad practice."
  | conductorsInBundle => "Insulated conductors in a bundle is possibly a bad practice."
  | cableInConduit => "Cable in a conduit is a costly practice."

def severity (m : Message) : Severity := Severity.ofNumber m.number

def ofNumber? (n : Int) : Option Message := all.find? (fun m => m.number = n)

/-- The messages about how a circuit is routed: all but the one about its load. -/
def aboutRouting : List Message := all.filter (· ≠ invalidLoad)

/-- The warnings about discouraged ways of routing. -/
def aboutPractice : List Message := [conductorsInFreeAir, conductorsInBundle, cableInConduit]

theorem mem_all (m : Message) : m ∈ all := by
  cases m <;> decide

theorem ofNumber?_number (m : Message) : ofNumber? m.number = some m := by
  cases m <;> rfl

theorem number_injective {a b : Message} (h : a.number = b.number) : a = b := by
  have ha := ofNumber?_number a
  rw [h, ofNumber?_number b] at ha
  exact (Option.some.inj ha).symm

end Message

end Raceways
