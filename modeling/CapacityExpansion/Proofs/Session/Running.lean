import CapacityExpansion.Proofs.Files.Filling
import CapacityExpansion.Session.World

/-!
# Running a session

Much of what is done in a session looks at the files, and may log something, but changes
nothing else: what comes after it finds the same files in the same environment. So for
sessions like this it is enough to know their results, and these can be told one after
the other.

* `World.Keeps`: nothing is changed but the log and what is printed;
* `Gives`: a session has a result and changes nothing else;
* `Gives.bind`, `Gives.bind_result`: sessions in a row;
* `Gives.mapM`: a session for each element of a list;
* `Ends`: a session has a result, and leaves some files behind.
-/

namespace CapacityExpansion

/-- Nothing is changed but the log and what is printed, and the log is not stopped. -/
structure World.Keeps (world after : World) : Prop where
  files : after.files = world.files
  environment : after.environment = world.environment
  isStarted : world.logger.isStarted = true → after.logger.isStarted = true

namespace World.Keeps

variable {world next after : World}

theorem refl (world : World) : world.Keeps world := ⟨rfl, rfl, id⟩

theorem trans (h : world.Keeps next) (h' : next.Keeps after) : world.Keeps after :=
  ⟨h'.files.trans h.files, h'.environment.trans h.environment, h'.isStarted ∘ h.isStarted⟩

end World.Keeps

namespace Session

variable {α β : Type} {session : Session α} {next : α → Session β} {world after : World} {a : α}
  {failure : Failure}

theorem bind_of_ok (h : session world = (.ok a, after)) :
    (session >>= next) world = next a after := by
  change ExceptT.bindCont next (session world).1 (session world).2 = next a after
  rw [h]
  rfl

theorem bind_of_error (h : session world = (.error failure, after)) :
    (session >>= next) world = (.error failure, after) := by
  change ExceptT.bindCont next (session world).1 (session world).2 = (.error failure, after)
  rw [h]
  rfl

/-- A session has a result in a world, and changes nothing but the log. -/
def Gives (session : Session α) (world : World) (result : Except Failure α) : Prop :=
  ∃ after, session world = (result, after) ∧ world.Keeps after

namespace Gives

variable {result : Except Failure α}

theorem eq (h : Gives session world result) : (session world).1 = result := by
  obtain ⟨after, h, -⟩ := h
  rw [h]

theorem keeps (h : Gives session world result) : world.Keeps (session world).2 := by
  obtain ⟨after, h, hkeeps⟩ := h
  rwa [h]

theorem pure (a : α) (world : World) : Gives (pure a) world (.ok a) := ⟨world, rfl, .refl world⟩

theorem throw (failure : Failure) (world : World) :
    Gives (throw failure : Session α) world (.error failure) := ⟨world, rfl, .refl world⟩

/-- What comes after a session finds the same files in the same environment. -/
theorem bind {result : Except Failure β} (h : Gives session world (.ok a))
    (h' : ∀ after, world.Keeps after → Gives (next a) after result) :
    Gives (session >>= next) world result := by
  obtain ⟨after, h, hkeeps⟩ := h
  obtain ⟨last, hlast, hkeeps'⟩ := h' after hkeeps
  exact ⟨last, (bind_of_ok h).trans hlast, hkeeps.trans hkeeps'⟩

/-- A session which fails is the last one. -/
theorem bind_error (h : Gives session world (.error failure)) :
    Gives (session >>= next) world (.error failure) := by
  obtain ⟨after, h, hkeeps⟩ := h
  exact ⟨after, bind_of_error h, hkeeps⟩

/-- Sessions in a row give what their results give in a row. -/
theorem bind_result {result : Except Failure α} {g : α → Except Failure β}
    (h : Gives session world result)
    (h' : ∀ a after, world.Keeps after → Gives (next a) after (g a)) :
    Gives (session >>= next) world (result >>= g) := by
  cases result with
  | error failure => exact h.bind_error
  | ok a => exact h.bind (h' a)

theorem look (attempt : Files → Attempt α) (world : World) :
    Gives (look attempt) world (attempt world.files) := ⟨world, rfl, .refl world⟩

theorem look_eq {attempt : Files → Attempt α} (h : attempt world.files = result) :
    Gives (Session.look attempt) world result := h ▸ look attempt world

theorem get (world : World) : Gives get world (.ok world) := ⟨world, rfl, .refl world⟩

theorem within (h : Gives session world result) (context : String) :
    Gives (within context session) world (Attempt.within context result) := by
  obtain ⟨after, h, hkeeps⟩ := h
  refine ⟨after, ?_, hkeeps⟩
  rw [Session.within, h]

/-- What succeeds does so on the way to something else. -/
theorem within_ok (h : Gives session world (.ok a)) (context : String) :
    Gives (Session.within context session) world (.ok a) := h.within context

theorem record (level : Level) (message : String) (world : World) :
    Gives (record level message) world (.ok ()) := by
  refine ⟨_, rfl, ?_⟩
  change world.Keeps (if world.logger.shows level then _ else world)
  split
  · exact ⟨rfl, rfl, id⟩
  · exact .refl world

/-- If a session gives something for each element of a list, whatever has been logged, then it
    gives all of that for the list. -/
theorem mapM {one : α → Session β} {g : α → β} (h : ∀ a world, Gives (one a) world (.ok (g a)))
    (l : List α) (world : World) : Gives (l.mapM one) world (.ok (l.map g)) := by
  induction l generalizing world with
  | nil => exact pure [] world
  | cons a l ih =>
    rw [List.mapM_cons]
    exact (h a world).bind fun after _ => (ih after).bind fun after _ => pure _ after

theorem forM {one : α → Session PUnit} (h : ∀ a world, Gives (one a) world (.ok ()))
    (l : List α) (world : World) : Gives (l.forM one) world (.ok ()) := by
  induction l generalizing world with
  | nil => exact pure () world
  | cons a l ih => exact (h a world).bind fun after _ => ih after

end Gives

/-- A session has a result in a world, and leaves some files behind. -/
def Ends (session : Session α) (world : World) (result : Except Failure α) (files : Files) : Prop :=
  ∃ after, session world = (result, after) ∧ after.files = files

/-- What comes after a session which changes nothing else leaves its files behind. -/
theorem Gives.bind_ends {result : Except Failure β} {files : Files}
    (h : Gives session world (.ok a))
    (h' : ∀ after, world.Keeps after → Ends (next a) after result files) :
    Ends (session >>= next) world result files := by
  obtain ⟨after, h, hkeeps⟩ := h
  obtain ⟨last, hlast, hfiles⟩ := h' after hkeeps
  exact ⟨last, (bind_of_ok h).trans hlast, hfiles⟩

namespace Ends

variable {files : Files}

theorem onFiles {action : FileAction α} (h : action.Runs world.files a files) :
    Ends (onFiles action) world (.ok a) files := by
  refine ⟨{ world with files }, ?_, rfl⟩
  rw [Session.onFiles, h]

theorem bind_gives {result : Except Failure β} (h : Ends session world (.ok a) files)
    (h' : ∀ after, Gives (next a) after result) : Ends (session >>= next) world result files := by
  obtain ⟨after, h, hfiles⟩ := h
  obtain ⟨last, hlast, hkeeps⟩ := h' after
  exact ⟨last, (bind_of_ok h).trans hlast, hkeeps.files.trans hfiles⟩

end Ends

/-! ## The log -/

/-- Starts a log which has not been started, at a level with a filter. -/
def openLog (level : String) (folder : Option String) : Session Unit := do
  match Filter.ofText? level with
  | none => throw (.stated ("Unknown log level: " ++ (Text.trim level).toLower))
  | some filter =>
    if let some folder := folder then
      createLogFile folder infoFile
      createLogFile folder errorFile
    modify fun world => { world with logger := .running filter folder }

theorem startLog_of_not_isStarted (h : ¬world.logger.isStarted = true) (level : String)
    (folder : Option String) : startLog level folder world =
      openLog (world.environment.logLevel.getD level) folder { world with logger := .broken } := by
  change (if world.logger.isStarted then Pure.pure () else _ : Session Unit) world = _
  rw [if_neg h]
  rfl

/-- The log has been started, or can be started at a level. -/
def CanLog (level : String) (world : World) : Prop :=
  world.logger.isStarted = true ∨
    (Filter.ofText? (world.environment.logLevel.getD level)).isSome = true

/-- Without files for it, the log can be started if its level has a filter. -/
theorem Gives.startLog {level : String} (h : CanLog level world) :
    Gives (startLog level none) world (.ok ()) := by
  by_cases hstarted : world.logger.isStarted = true
  · exact ⟨world, startLog_of_isStarted hstarted level none, .refl world⟩
  · obtain ⟨filter, hfilter⟩ := Option.isSome_iff_exists.1 (h.resolve_left hstarted)
    refine ⟨{ world with logger := .running filter none }, ?_, rfl, rfl, fun e => absurd e hstarted⟩
    rw [startLog_of_not_isStarted hstarted, openLog, hfilter]
    rfl

end Session

end CapacityExpansion
