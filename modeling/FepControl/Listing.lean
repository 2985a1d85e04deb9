/-
  Displaying systems: the calls behind `getSystemParticipants`.

  To show a system, its name and the names of its participants are needed.  The source gets them
  from the library, one accessor after the other, in the middle of building the answer; each
  accessor is a call, and may throw.  Discovery, which is the command that shows systems, makes
  these calls outside of any `try` block.

  The listing asks the library for the name of a system, for its participants and for the name of
  each, and puts the answers together.  Since the accessors answer with the data of the object, the
  answer does not depend on the replies, and the calls do not depend on each other.
  `getSystemParticipants_eq` and `getSystems_eq` say so as equations: a fixed list of calls
  (`listing`), and a value (`displayed`).  So whether a listing throws is a question about that list
  of calls (`callAll_wp`), and what it shows is a question about the systems alone.
-/
import FepControl.OnSystem

namespace FepControl

open Lib

variable {W : Type}

/-- The participants of a system, as proxies. -/
def System.proxies (sys : System) : List ParticipantProxy :=
  sys.participants.map fun name => ⟨sys.name, name, true⟩

/-- The calls that display a system. -/
def listing (sys : System) : List Call :=
  .system sys .getSystemName :: .system sys .getParticipants ::
    sys.proxies.map fun part => .participant part .getName

/-- What is displayed of a system. -/
def displayed (sys : System) : Attributes :=
  [("system_name", displayedName sys.name), ("participants", join sys.participants ", ")]

/-- The names of the participants: a call for each, and the names that the objects have. -/
theorem getNames_eq : ∀ participants : List ParticipantProxy,
    getNames participants = (do
      callAll (participants.map fun part => .participant part .getName)
      pure (participants.map ParticipantProxy.name) : Control W (List String))
  | [] => rfl
  | part :: participants => by
      rw [getNames, getNames_eq participants, ParticipantProxy.getName]
      simp only [bind_assoc, pure_bind, List.map_cons, callAll]

/-- The proxies of a system have the names of its participants. -/
theorem System.names_proxies (sys : System) :
    sys.proxies.map ParticipantProxy.name = sys.participants := by
  rw [System.proxies, List.map_map]
  exact List.map_id _

/-- **The listing of one system**, as a list of calls and a value. -/
theorem getSystemParticipants_eq (sys : System) :
    getSystemParticipants sys = (do
      callAll (listing sys)
      pure (displayed sys) : Control W Attributes) := by
  rw [getSystemParticipants, System.getSystemName, System.getParticipants]
  simp only [bind_assoc, pure_bind]
  rw [← System.proxies, getNames_eq, System.names_proxies]
  simp only [bind_assoc, pure_bind, listing, callAll]
  rfl

/-- **The listing of systems**, one after the other. -/
theorem getSystems_eq : ∀ systems : List System,
    getSystems systems = (do
      callAll (systems.flatMap listing)
      pure (systems.map displayed) : Control W AttributesVec)
  | [] => rfl
  | system :: systems => by
      rw [getSystems, getSystems_eq systems, getSystemParticipants_eq, List.flatMap_cons,
        callAll_append]
      simp only [bind_assoc, pure_bind, List.map_cons]

end FepControl
