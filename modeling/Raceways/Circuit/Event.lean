import Raceways.Circuit.Basic

/-! What a circuit tells about a change while it is made. -/

namespace Raceways

inductive Event where
  | systemChanged (system : VoltageSystem) (setSize : Nat)
  | rebuilt (items : Nat) (wiring : Wiring) (sets setsPerConduit : Nat)
  | routed (items : Nat) (mode : Mode)
  | setsChanged (sets : Nat)
  | distributed (sets conduits : Nat)
  | failed (m : Message)
  | leftBehind (items : Nat)
  deriving DecidableEq

namespace Event

def isWarning : Event → Bool
  | failed _ | leftBehind _ => true
  | _ => false

def text : Event → String
  | systemChanged system n =>
    "Voltage system changed to " ++ system.name ++ ": " ++ toString n ++ " conductors per set."
  | rebuilt items wiring sets perConduit =>
    "Rebuilt " ++ toString items
      ++ (match wiring with
        | .conductors => " conductors for "
        | .cables => " cables for ")
      ++ toString sets ++ " sets, " ++ toString perConduit ++ " per conduit."
  | routed items mode => "Routed " ++ toString items ++ " entities in " ++ mode.name ++ " mode."
  | setsChanged sets => "Circuit now has " ++ toString sets ++ " sets, one per conduit."
  | distributed sets conduits =>
    "Distributed " ++ toString sets ++ " sets over " ++ toString conduits ++ " conduits."
  | failed m => "Circuit error " ++ toString m.number ++ ": " ++ m.text
  | leftBehind items =>
    "Shared raceway is borrowed, leaving " ++ toString items ++ " entities in it."

/-- The event as a line of the log. -/
def line (e : Event) : String :=
  (if e.isWarning then "WARN " else "DEBUG ") ++ e.text

end Event

end Raceways
