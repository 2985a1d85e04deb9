/-
  The commands on the session itself: the working directory, auto-discovery, JSON mode, and the end
  of the session.

  None of them looks a system up, and but for the working directory none of them can fail.  The
  directory is not a member of the session: it is that of the process, which all sessions share.

  1. **The working directory** -- the path is made canonical before it is set; a refused change is
     reported with a text for its error code (`resolveFilesystemErrorCode`).

  2. **Modes** -- the two JSON commands change the mode in two places, the session and its monitor,
     with nothing that keeps the monitor's thread from writing in between (`recordsMeanwhile`).  A
     record that comes just then is written in the new mode by a monitor that has the old one, or
     the other way round.

  3. **The end** -- `exit` and `quit` are one handler: it says good bye, empties the registry and
     ends the process, so it never returns to the loop that called it.
-/
import FepControl.Contract

namespace FepControl

open Lib

variable {W : Type} {D : Stop → Prop}

/-! ## The working directory -/

/-- `resolveFilesystemErrorCode`. -/
def resolveFilesystemErrorCode : FilesystemError → String
  | .OK => "OK"
  | .OPEN_FAILED => "OPEN_FAILED"
  | .GENERAL_FAILURE => "GENERAL_FAILURE"
  | .IO_ERROR => "IO_ERROR"
  | .INVALID_PATH => "INVALID_PATH"
  | .ACCESS_DENIED => "ACCESS_DENIED"
  | .other => "UNKNOWN_ERROR"

/-- `a_util::filesystem::setWorkingDirectory(path)`. -/
def setWorkingDirectory (path : String) : Control W FilesystemError := fun env m =>
  let (result, working_directory) := env.setWorkingDirectory m.working_directory path
  (.ok result, { m with working_directory := working_directory })

/-- `setCurrentWorkingDirectory`. -/
def setCurrentWorkingDirectory (first _last : TokenIterator) : Control W Bool := do
  let action ← first.deref
  let first ← first.next
  let path := (← Eff.read).makeCanonical (← first.deref)
  let result ← setWorkingDirectory path
  if result = .OK then
    writeAttribute action ("working_directory", path)
    pure true
  else
    let error := "cannot set working directory to '" ++ path ++ "'"
    writeError action error .filesystem_error (resolveFilesystemErrorCode result)
    pure false

/-- `getCurrentWorkingDirectory`. -/
def getCurrentWorkingDirectory (first _last : TokenIterator) : Control W Bool := do
  let current_path := (← Eff.get).working_directory
  writeAttribute (← first.deref) ("working_directory", current_path)
  pure true

/-! ## Modes -/

/-- `enableAutoDiscovery`. -/
def enableAutoDiscovery (first _last : TokenIterator) : Control W Bool := do
  update fun s => { s with auto_discovery_of_systems := true }
  writeNote (← first.deref) "auto_discovery: enabled"
  pure true

/-- `disableAutoDiscovery`. -/
def disableAutoDiscovery (first _last : TokenIterator) : Control W Bool := do
  update fun s => { s with auto_discovery_of_systems := false }
  writeNote (← first.deref) "auto_discovery: disabled"
  pure true

/-- The monitor's thread writes a number of records. -/
def onLogs : List LogRecord → Control W Unit
  | [] => pure ()
  | log :: logs => do
      onLog log
      onLogs logs

/-- The statement between two others may be preceded by log records. -/
def monitorMeanwhile : Control W Unit := do
  let records := (← Eff.read).recordsMeanwhile (← Eff.get).world
  onLogs records

/-- `monitor.setJsonMode(json_mode)`. -/
def setMonitorJsonMode (json_mode : Bool) : Control W Unit :=
  update fun s => { s with monitor_json_mode := json_mode }

/-- `enableJsonMode`. -/
def enableJsonMode (first _last : TokenIterator) : Control W Bool := do
  update fun s => { s with json_mode := true }
  monitorMeanwhile
  setMonitorJsonMode true
  writeNote (← first.deref) "json_mode: enabled"
  pure true

/-- `disableJsonMode`. -/
def disableJsonMode (first _last : TokenIterator) : Control W Bool := do
  update fun s => { s with json_mode := false }
  monitorMeanwhile
  setMonitorJsonMode false
  writeNote (← first.deref) "json_mode: disabled"
  pure true

/-! ## The end -/

/-- `quit`. -/
def quit (first _last : TokenIterator) : Control W Bool := do
  let action ← first.deref
  writeNote action "bye bye"
  -- we clear that here before any static variable is closed
  update fun s => { s with connected_or_discovered_systems := .empty }
  Eff.stop (.exit 0)

/-! ## What the handlers do -/

/-- A directory is set or refused, and either is answered for. -/
theorem setCurrentWorkingDirectory_guarded (a d : String) (last : TokenIterator) :
    Guarded D Stays (Plain a)
      (setCurrentWorkingDirectory (begin_ [a, d]) last : Control W Bool) := by
  intro env m
  show Eff.wp (if (env.setWorkingDirectory m.working_directory (env.makeCanonical d)).1 = .OK then
      _ else _ : Control W Bool) env _ { m with working_directory := _ }
  split
  · exact ⟨⟨⟨rfl, rfl, rfl, rfl⟩, rfl⟩, _, rfl, Plain.attr a _ _⟩
  · exact ⟨⟨⟨rfl, rfl, rfl, rfl⟩, rfl⟩, _, rfl, Plain.error a _ (by decide) _ _⟩

theorem getCurrentWorkingDirectory_guarded (a : String) (last : TokenIterator) :
    Guarded D Stays (Plain a)
      (getCurrentWorkingDirectory (begin_ [a]) last : Control W Bool) := by
  intro env m
  exact ⟨⟨⟨rfl, rfl, rfl, rfl⟩, rfl⟩, _, rfl, Plain.attr a _ _⟩

/-- The records of a list are written in the two modes of the moment. -/
theorem onLogs_apply (env : Env W) : ∀ (logs : List LogRecord) (m : Machine W),
    onLogs logs env m = (.ok (), { m with
      logged := m.logged ++ logs.map fun log =>
        ⟨m.session.monitor_json_mode, m.session.json_mode, log⟩ })
  | [], m => by simp [onLogs]
  | log :: logs, m => by
      show onLogs logs env _ = _
      rw [onLogs_apply env logs]
      simp

/-- The machine once auto-discovery is switched. -/
def Machine.autoDiscovery (m : Machine W) (enabled : Bool) : Machine W :=
  { m with session := { m.session with auto_discovery_of_systems := enabled } }

/-- Auto-discovery is switched on, and a note says so. -/
theorem enableAutoDiscovery_eq (a : String) (last : TokenIterator) (env : Env W)
    (m : Machine W) : enableAutoDiscovery (begin_ [a]) last env m =
      (.ok true, (m.autoDiscovery true).wrote (.note a "auto_discovery: enabled")) := rfl

theorem disableAutoDiscovery_eq (a : String) (last : TokenIterator) (env : Env W)
    (m : Machine W) : disableAutoDiscovery (begin_ [a]) last env m =
      (.ok true, (m.autoDiscovery false).wrote (.note a "auto_discovery: disabled")) := rfl

/-- The machine once the session and its monitor are switched: the records in between find the
    session in the new mode and the monitor in the old one. -/
def Machine.jsonMode (m : Machine W) (env : Env W) (enabled : Bool) : Machine W :=
  { m with
    session := { m.session with json_mode := enabled, monitor_json_mode := enabled }
    logged := m.logged ++ (env.recordsMeanwhile m.world).map fun log =>
      ⟨m.session.monitor_json_mode, enabled, log⟩ }

/-- The records that come meanwhile are written in the mode that the monitor has by then. -/
theorem monitorMeanwhile_eq (env : Env W) (m : Machine W) :
    monitorMeanwhile env m = (.ok (), { m with
      logged := m.logged ++ (env.recordsMeanwhile m.world).map fun log =>
        ⟨m.session.monitor_json_mode, m.session.json_mode, log⟩ }) :=
  onLogs_apply env _ m

/-- **JSON mode is switched on** in two steps, and what the monitor gets between them is logged. -/
theorem enableJsonMode_eq (a : String) (last : TokenIterator) (env : Env W) (m : Machine W) :
    enableJsonMode (begin_ [a]) last env m =
      (.ok true, (m.jsonMode env true).wrote (.note a "json_mode: enabled")) := by
  show (monitorMeanwhile >>= fun _ => _ : Control W Bool) env _ = _
  rw [Eff.bind_of_ok (monitorMeanwhile_eq env _)]
  rfl

/-- And off. -/
theorem disableJsonMode_eq (a : String) (last : TokenIterator) (env : Env W) (m : Machine W) :
    disableJsonMode (begin_ [a]) last env m =
      (.ok true, (m.jsonMode env false).wrote (.note a "json_mode: disabled")) := by
  show (monitorMeanwhile >>= fun _ => _ : Control W Bool) env _ = _
  rw [Eff.bind_of_ok (monitorMeanwhile_eq env _)]
  rfl

/-- `quit` answers and ends the process. -/
theorem quit_eq (a : String) (last : TokenIterator) (env : Env W) (m : Machine W) :
    quit (begin_ [a]) last env m = (.stops (.exit 0),
      { m.wrote (.note a "bye bye") with
        session := { m.session with connected_or_discovered_systems := .empty } }) := rfl

end FepControl
