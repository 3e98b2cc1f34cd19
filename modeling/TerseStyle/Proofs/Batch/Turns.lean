/-
The turns of a batch. Each file has its turn on the disk that the turns before it left; the first one that fails ends
the batch and leaves the disk as it is.

Results:
- `rewriteFile_due`, `rewriteFile_fails`: what one turn does, and what one that fails does.
- `rewriteAll_turns`: what the turns of a whole batch do, by induction on the paths.
- `runBatch_turns`: the disk, the result and the reports of a batch in place; a run that fails before its batch writes
  nothing.
-/
import Mathlib.Data.List.Basic
import TerseStyle.Batch.Run
import TerseStyle.Proofs.Files.Writing

namespace TerseStyle.Batch

open Files (Disk)
open Rewrite (Rewriter)

/-! ## Running actions -/

variable {α β : Type} {w w' : World}

theorem run_bind_ok {x : Action α} {f : α → Action β} {a : α} (h : x.run.run w = (.ok a, w')) :
    (x >>= f).run.run w = (f a).run.run w' := by
  rw [ExceptT.run_bind, StateT.run_bind, h]
  rfl

theorem run_bind_error {x : Action α} {f : α → Action β} {failure : Failure}
    (h : x.run.run w = (.error failure, w')) : (x >>= f).run.run w = (.error failure, w') := by
  rw [ExceptT.run_bind, StateT.run_bind, h]
  rfl

theorem get_run (w : World) : (get : Action World).run.run w = (.ok w, w) := rfl

theorem report_run (events : List Event) :
    (report events).run.run w = (.ok (), ⟨w.toDisk, w.events ++ events⟩) := rfl

/-! ## One turn -/

/-- the turn of a file: what it held, and what the rewriter made of that -/
structure Turn where
  path : Text
  content : Text
  output : Text
  deriving DecidableEq, Repr

/-- whether the rewriter changed something -/
def Turn.changed (turn : Turn) : Bool := turn.output ≠ turn.content

/-- what is reported in a turn -/
def Turn.events (rewriter : Rewriter) (dryRun : Bool) (turn : Turn) : List Event :=
  rewriteEvents (rewriter.rewrite turn.path turn.content) ++
    if turn.changed then [.rewrote turn.path dryRun] else []

/-- the file of a turn can be read on a disk and be rewritten -/
structure Turn.Due (rewriter : Rewriter) (turn : Turn) (disk : Disk) : Prop where
  read : disk.read turn.path = .ok turn.content
  rewritten : (rewriter.rewrite turn.path turn.content).result = .ok turn.output

/-- the disk behind a turn: what was changed is written, unless the run is dry -/
inductive Turn.Leaves (dryRun : Bool) (turn : Turn) (disk : Disk) : (after : Disk) → Prop where
  | idle (h : turn.changed = false ∨ dryRun = true) : Leaves dryRun turn disk disk
  | writes {after : Disk} (changed : turn.changed = true) (inPlace : dryRun = false)
      (written : disk.write turn.path turn.output = .ok after) : Leaves dryRun turn disk after

/-- a turn puts what the rewriter made in place of what the file held, and changes nothing else -/
structure Turn.Takes (rewriter : Rewriter) (turn : Turn) (disk after : Disk) : Prop extends
    turn.Due rewriter disk where
  replaced : ∃ location, disk.Holds turn.path location turn.content ∧ disk.Replaces location turn.output after
  unchanged : turn.output = turn.content → after = disk

/-- the file at a path cannot be read on a disk, or not be rewritten, or what changed cannot be written; `log` is
reported -/
inductive Fails (rewriter : Rewriter) (dryRun : Bool) (disk : Disk) (path : Text) :
    Failure → (log : List Event) → Prop where
  | read {fault : Files.Fault} (unread : disk.read path = .error fault) :
      Fails rewriter dryRun disk path (.read path fault) []
  | rewrite {content : Text} {e : Rewrite.RewriteError} (read : disk.read path = .ok content)
      (refused : (rewriter.rewrite path content).result = .error e) :
      Fails rewriter dryRun disk path (.rewrite path e) (rewriteEvents (rewriter.rewrite path content))
  | write {turn : Turn} {fault : Files.Fault} (due : turn.Due rewriter disk) (place : turn.path = path)
      (changed : turn.changed = true) (inPlace : dryRun = false)
      (unwritten : disk.write turn.path turn.output = .error fault) :
      Fails rewriter dryRun disk path (.write path fault) (rewriteEvents (rewriter.rewrite path turn.content))

variable {rewriter : Rewriter} {dryRun : Bool} {turn : Turn} {disk after : Disk} {path : Text} {failure : Failure}
  {log : List Event}

/-- a file that is read and rewritten has its turn, unless it cannot be written -/
theorem Turn.Due.leaves_or_fails (h : turn.Due rewriter disk) (dryRun : Bool) :
    (∃ after, turn.Leaves dryRun disk after) ∨ ∃ failure log, Fails rewriter dryRun disk turn.path failure log := by
  by_cases hidle : turn.changed = false ∨ dryRun = true
  · exact .inl ⟨disk, .idle hidle⟩
  · obtain ⟨hchanged, hplace⟩ := not_or.1 hidle
    rw [Bool.not_eq_false] at hchanged
    rw [Bool.not_eq_true] at hplace
    rcases hwrite : disk.write turn.path turn.output with fault | after
    · exact .inr ⟨_, _, .write h rfl hchanged hplace hwrite⟩
    · exact .inl ⟨after, .writes hchanged hplace hwrite⟩

theorem due_or_fails (rewriter : Rewriter) (dryRun : Bool) (disk : Disk) (path : Text) :
    (∃ (turn : Turn) (after : Disk), turn.path = path ∧ turn.Due rewriter disk ∧ turn.Leaves dryRun disk after) ∨
      ∃ failure log, Fails rewriter dryRun disk path failure log := by
  rcases hread : disk.read path with fault | content
  · exact .inr ⟨_, _, .read hread⟩
  · rcases hresult : (rewriter.rewrite path content).result with e | output
    · exact .inr ⟨_, _, .rewrite hread hresult⟩
    · let turn : Turn := ⟨path, content, output⟩
      have hdue : turn.Due rewriter disk := ⟨hread, hresult⟩
      rcases hdue.leaves_or_fails dryRun with ⟨after, hleaves⟩ | hfails
      · exact .inl ⟨turn, after, rfl, hdue, hleaves⟩
      · exact .inr hfails

theorem writeFile_ok {output : Text} (h : w.toDisk.write path output = .ok after) :
    (writeFile path output).run.run w = (.ok (), ⟨after, w.events⟩) := by
  rw [writeFile, run_bind_ok (get_run w)]
  simp only [h]
  rfl

theorem writeFile_error {output : Text} {fault : Files.Fault} (h : w.toDisk.write path output = .error fault) :
    (writeFile path output).run.run w = (.error (.write path fault), w) := by
  rw [writeFile, run_bind_ok (get_run w)]
  simp only [h]
  rfl

/-- the run of a file that is read and rewritten, up to what it is left with -/
theorem rewriteFile_run (h : turn.Due rewriter w.toDisk) :
    (rewriteFileWith rewriter dryRun turn.path).run.run w =
      (leaveFile dryRun turn.path turn.content turn.output).run.run
        ⟨w.toDisk, w.events ++ rewriteEvents (rewriter.rewrite turn.path turn.content)⟩ := by
  rw [rewriteFileWith, run_bind_ok (get_run w)]
  simp only [h.read]
  rw [run_bind_ok (report_run _), h.rewritten]

/-- a file that changed is left by a write in place -/
theorem leaveFile_inPlace (h : turn.changed = true) :
    leaveFile false turn.path turn.content turn.output = do
      writeFile turn.path turn.output
      report [.rewrote turn.path false]
      return true := by
  have hdiffer : turn.output ≠ turn.content := by simpa [Turn.changed] using h
  rw [leaveFile, if_neg hdiffer]
  rfl

theorem rewriteFile_due (h : turn.Due rewriter w.toDisk) (hleaves : turn.Leaves dryRun w.toDisk after) :
    (rewriteFileWith rewriter dryRun turn.path).run.run w =
      (.ok turn.changed, ⟨after, w.events ++ turn.events rewriter dryRun⟩) := by
  rw [rewriteFile_run h, Turn.events, ← List.append_assoc]
  cases hleaves with
  | idle hidle =>
    by_cases hsame : turn.output = turn.content
    · have hchanged : turn.changed = false := by simp [Turn.changed, hsame]
      rw [leaveFile, if_pos hsame, hchanged, if_neg Bool.false_ne_true, List.append_nil]
      rfl
    · have hchanged : turn.changed = true := by simp [Turn.changed, hsame]
      have hdry : dryRun = true := hidle.resolve_left (by simp [hchanged])
      rw [leaveFile, if_neg hsame, hdry, hchanged, if_pos rfl]
      rfl
  | writes hchanged hplace hwritten =>
    have hwrite := writeFile_ok (w := ⟨w.toDisk, w.events ++ rewriteEvents (rewriter.rewrite turn.path turn.content)⟩)
      hwritten
    rw [hplace, leaveFile_inPlace hchanged, run_bind_ok hwrite, run_bind_ok (report_run _), hchanged, if_pos rfl]
    rfl

theorem rewriteFile_fails (h : Fails rewriter dryRun w.toDisk path failure log) :
    (rewriteFileWith rewriter dryRun path).run.run w = (.error failure, ⟨w.toDisk, w.events ++ log⟩) := by
  cases h with
  | read unread =>
    rw [rewriteFileWith, run_bind_ok (get_run w)]
    simp only [unread, List.append_nil]
    rfl
  | rewrite read refused =>
    rw [rewriteFileWith, run_bind_ok (get_run w)]
    simp only [read]
    rw [run_bind_ok (report_run _), refused]
    rfl
  | write due place hchanged hplace unwritten =>
    subst place
    rw [rewriteFile_run due, hplace, leaveFile_inPlace hchanged]
    exact run_bind_error (writeFile_error unwritten)

theorem Turn.Due.takes (h : turn.Due rewriter disk) (hleaves : turn.Leaves false disk after) :
    turn.Takes rewriter disk after := by
  obtain ⟨location, hold⟩ := Disk.read_eq_ok.mp h.read
  cases hleaves with
  | idle hidle =>
    have hsame : turn.output = turn.content := by
      simpa [Turn.changed] using hidle.resolve_right Bool.false_ne_true
    refine { toDue := h, replaced := ⟨location, hold, ?_⟩, unchanged := fun _ => rfl }
    exact { written := hsame ▸ hold.held, kept := fun _ _ => rfl, locations := rfl, directory := rfl, locked := rfl }
  | writes hchanged _ hwritten =>
    have hdiffer : turn.output ≠ turn.content := by simpa [Turn.changed] using hchanged
    rw [hold.write] at hwritten
    split at hwritten
    · cases hwritten
    · cases hwritten
      exact { toDue := h, replaced := ⟨location, hold, Disk.replaces_write hold.held⟩,
              unchanged := fun hsame => absurd hsame hdiffer }

/-! ## Turns one after another -/

/-- the turns of a batch in place, each on the disk that the one before it left -/
inductive Turns (rewriter : Rewriter) : (disk : Disk) → List Turn → (after : Disk) → Prop where
  | done {disk : Disk} : Turns rewriter disk [] disk
  | next {turn : Turn} {turns : List Turn} {disk between after : Disk}
      (first : turn.Takes rewriter disk between) (rest : Turns rewriter between turns after) :
      Turns rewriter disk (turn :: turns) after

variable {turns : List Turn}

theorem Turn.Takes.shape (h : turn.Takes rewriter disk after) : disk.SameShape after := by
  obtain ⟨location, hold, hreplaced⟩ := h.replaced
  exact hreplaced.shape hold.held

/-- a file that has no turn keeps what it holds -/
theorem Turns.frame (h : Turns rewriter disk turns after) {location : Files.Location}
    (hnone : ∀ path ∈ turns.map Turn.path, disk.locate path ≠ .ok location) :
    after.tree.get? location = disk.tree.get? location := by
  induction h with
  | done => rfl
  | @next turn turns disk between after first rest ih =>
    rw [List.map_cons, List.forall_mem_cons] at hnone
    obtain ⟨hfirst, hnone⟩ := hnone
    obtain ⟨place, hold, hreplaced⟩ := first.replaced
    have hplace : location ≠ place := by
      rintro rfl
      exact hfirst hold.located
    have hrest : ∀ path ∈ turns.map Turn.path, between.locate path ≠ .ok location := by
      intro path hpath
      rw [← Disk.locate_congr first.shape]
      exact hnone path hpath
    calc after.tree.get? location
      _ = between.tree.get? location := ih hrest
      _ = disk.tree.get? location := hreplaced.kept location hplace

/-- the turns of some paths: either all of them take place, or those in front of one that fails -/
theorem rewriteAll_turns (rewriter : Rewriter) (paths : List Text) (s : Summary) (w : World) :
    ∃ turns after, Turns rewriter w.toDisk turns after ∧
      ((turns.map Turn.path = paths ∧
          (rewriteAll rewriter false s paths).run.run w =
            (.ok ⟨s.processed + paths.length, s.changed + turns.countP Turn.changed⟩,
              ⟨after, w.events ++ turns.flatMap (Turn.events rewriter false)⟩)) ∨
        ∃ path rest failure log, paths = turns.map Turn.path ++ path :: rest ∧
          Fails rewriter false after path failure log ∧
          (rewriteAll rewriter false s paths).run.run w =
            (.error failure, ⟨after, w.events ++ (turns.flatMap (Turn.events rewriter false) ++ log)⟩)) := by
  induction paths generalizing s w with
  | nil =>
    refine ⟨[], w.toDisk, .done, .inl ⟨rfl, ?_⟩⟩
    simp only [List.flatMap_nil, List.append_nil]
    rfl
  | cons path rest ih =>
    rcases due_or_fails rewriter false w.toDisk path with ⟨turn, between, rfl, hdue, hleaves⟩ | ⟨failure, log, hfails⟩
    · -- the turn takes place; the others follow on the disk that it leaves
      have hrun := rewriteFile_due hdue hleaves
      obtain ⟨turns, after, hturns, hend⟩ := ih
        ⟨s.processed + 1, s.changed + if turn.changed then 1 else 0⟩
        ⟨between, w.events ++ turn.events rewriter false⟩
      refine ⟨turn :: turns, after, .next (hdue.takes hleaves) hturns, ?_⟩
      rw [rewriteAll, run_bind_ok hrun]
      rcases hend with ⟨rfl, hend⟩ | ⟨path, behind, failure, log, rfl, hfails, hend⟩
      · refine .inl ⟨rfl, ?_⟩
        have hcount : (turn :: turns).countP Turn.changed =
            (if turn.changed then 1 else 0) + turns.countP Turn.changed := by
          rw [List.countP_cons, Nat.add_comm]
        rw [hend, hcount, List.length_cons, List.flatMap_cons, List.append_assoc]
        simp only [Nat.add_assoc, Nat.add_comm 1]
      · refine .inr ⟨path, behind, failure, log, rfl, hfails, ?_⟩
        rw [hend, List.flatMap_cons, List.append_assoc, List.append_assoc]
    · refine ⟨[], w.toDisk, .done, .inr ⟨path, rest, failure, log, rfl, hfails, ?_⟩⟩
      rw [rewriteAll, run_bind_error (rewriteFile_fails hfails)]
      rfl

/-! ## The whole batch -/

/-- the INFO lines among events -/
def infos (events : List Event) : List Event := events.filter fun e => e.level = .info

theorem infos_append (a b : List Event) : infos (a ++ b) = infos a ++ infos b := List.filter_append ..

theorem infos_rewriteEvents (r : Rewrite.Report) : infos (rewriteEvents r) = [] := by
  unfold infos rewriteEvents
  rw [List.filter_append, List.append_eq_nil_iff]
  constructor
  · simp [List.filter_eq_nil_iff, Event.level]
  · split
    · split <;> simp [Event.level]
    · rfl

theorem infos_turns (rewriter : Rewriter) (turns : List Turn) (dryRun : Bool) :
    infos (turns.flatMap (Turn.events rewriter dryRun)) =
      (turns.filter Turn.changed).map fun turn => .rewrote turn.path dryRun := by
  induction turns with
  | nil => rfl
  | cons turn turns ih =>
    rw [List.flatMap_cons, infos_append, ih, Turn.events, infos_append, infos_rewriteEvents, List.nil_append]
    cases hchanged : turn.changed with
    | false => simp [infos, hchanged]
    | true => simp [infos, hchanged, Event.level]

theorem Fails.infos_log (h : Fails rewriter dryRun disk path failure log) : infos log = [] := by
  cases h with
  | read => rfl
  | rewrite => exact infos_rewriteEvents _
  | write => exact infos_rewriteEvents _

/-- the words in front of a path that a batch fails with -/
def attempts : List Text := ["Failed to read ".toList, "Failed to rewrite ".toList, "Failed to write ".toList]

theorem Fails.context (h : Fails rewriter dryRun disk path failure log) :
    ∃ attempt ∈ attempts, failure.context = attempt ++ path := by
  cases h with
  | read => exact ⟨_, .head _, rfl⟩
  | rewrite => exact ⟨_, .tail _ (.head _), rfl⟩
  | write => exact ⟨_, .tail _ (.tail _ (.head _)), rfl⟩

/-! ## Before the batch -/

variable {tools : Tools}

theorem loadSettings_run (decoders : Config.Decoders) (config : Option Text) (w : World) :
    ((loadSettings decoders config).run.run w).2 = w := by
  cases config with
  | none => rfl
  | some path =>
    rw [loadSettings, run_bind_ok (get_run w)]
    split <;> rfl

theorem lift_run (x : Except Failure α) (w : World) : (liftM x : Action α).run.run w = (x, w) := by
  cases x <;> rfl

theorem expandOnto_disk (matcher : Files.Matcher) (patterns found : List Text) (w : World) :
    ((expandOnto matcher found patterns).run.run w).2.toDisk = w.toDisk := by
  induction patterns generalizing found w with
  | nil => rfl
  | cons pattern rest ih =>
    rw [expandOnto, run_bind_ok (get_run w)]
    rcases hfound : pathsOf matcher w.toDisk pattern with failure | paths
    · rw [run_bind_error (lift_run _ w |>.trans (by rw [hfound]))]
    · rw [run_bind_ok (lift_run _ w |>.trans (by rw [hfound]))]
      by_cases hnone : (paths.filter w.isFile).isEmpty = true
      · simp only [if_pos hnone]
        rw [run_bind_ok (report_run _)]
        exact ih _ _
      · simp only [if_neg hnone]
        exact ih _ w

/-- the settings of a request cannot be loaded, or one of its patterns cannot be expanded -/
def FailsBefore (tools : Tools) (r : Request) (w : World) (failure : Failure) : Prop :=
  ((loadSettings tools.decoders r.config).run.run w).1 = .error failure ∨
    ∃ settings w', (loadSettings tools.decoders r.config).run.run w = (.ok settings, w') ∧
      ((expandWith tools.matcher r.patterns).run.run w').1 = .error failure

theorem run_failsBefore {r : Request} (h : FailsBefore tools r w failure) :
    ((runWith tools r).run.run w).1 = .error failure ∧ ((runWith tools r).run.run w).2.toDisk = w.toDisk := by
  have hload := loadSettings_run tools.decoders r.config w
  rcases h with h | ⟨settings, w', h, h'⟩
  · have hrun : (loadSettings tools.decoders r.config).run.run w = (.error failure, w) := Prod.ext h hload
    rw [runWith, run_bind_error hrun]
    exact ⟨rfl, rfl⟩
  · have hdisk := expandOnto_disk tools.matcher r.patterns [] w'
    have hrun : (expandWith tools.matcher r.patterns).run.run w' =
        (.error failure, ((expandWith tools.matcher r.patterns).run.run w').2) := Prod.ext h' rfl
    rw [runWith, run_bind_ok h, run_bind_error hrun]
    rw [h] at hload
    exact ⟨rfl, hdisk.trans (congrArg World.toDisk hload)⟩

/-- **What a batch in place does.** For any rewriter and on any disk, the files of the first paths have their turns, each
on the disk that the one before left: what the rewriter makes of a file as it is then takes the place of its text. A file
outside of these paths keeps what it holds. Either the turns are those of all paths, and the batch counts and reports the
changed ones in order and then its end; or the next path fails on the disk that they left, the batch fails with its
context, and no end is reported. A run that fails before its batch leaves the disk as it is. -/
theorem runBatch_turns (tools : Tools) (rewriter : Rewriter) (paths : List Text) (w : World) :
    (∃ turns after log result,
      (runBatchWith rewriter false paths).run.run w = (result, ⟨after, w.events ++ log⟩) ∧
        Turns rewriter w.toDisk turns after ∧
        (∀ location, (∀ path ∈ paths.take turns.length, w.locate path ≠ .ok location) →
          after.tree.get? location = w.tree.get? location) ∧
        ((turns.map Turn.path = paths ∧ result = .ok ⟨paths.length, turns.countP Turn.changed⟩ ∧
            infos log = (turns.filter Turn.changed).map (fun turn => .rewrote turn.path false) ++
              [.finished paths.length (turns.countP Turn.changed) false]) ∨
          ∃ path rest failure cause, paths = turns.map Turn.path ++ path :: rest ∧
            Fails rewriter false after path failure cause ∧ result = .error failure ∧
            (∃ attempt ∈ attempts, failure.context = attempt ++ path) ∧
            infos log = (turns.filter Turn.changed).map fun turn => .rewrote turn.path false)) ∧
      ∀ r failure, FailsBefore tools r w failure →
        ((runWith tools r).run.run w).1 = .error failure ∧ ((runWith tools r).run.run w).2.toDisk = w.toDisk := by
  refine ⟨?_, fun r failure h => run_failsBefore h⟩
  obtain ⟨turns, after, hturns, hend⟩ := rewriteAll_turns rewriter paths {} w
  have hframe {front : List Text} (hfront : front = turns.map Turn.path) (location : Files.Location)
      (hnone : ∀ path ∈ front, w.locate path ≠ .ok location) : after.tree.get? location = w.tree.get? location :=
    hturns.frame (hfront ▸ hnone)
  rcases hend with ⟨hpaths, hrun⟩ | ⟨path, rest, failure, cause, hpaths, hfails, hrun⟩
  · refine ⟨turns, after, turns.flatMap (Turn.events rewriter false) ++
      [.finished paths.length (turns.countP Turn.changed) false], _, ?_, hturns, hframe ?_, .inl ⟨hpaths, rfl, ?_⟩⟩
    · rw [runBatchWith, run_bind_ok hrun, run_bind_ok (report_run _)]
      simp only [Nat.zero_add, List.append_assoc]
      rfl
    · rw [← hpaths, ← List.length_map (f := Turn.path), List.take_length]
    · rw [infos_append, infos_turns]
      rfl
  · refine ⟨turns, after, turns.flatMap (Turn.events rewriter false) ++ cause, _, ?_, hturns, hframe ?_,
      .inr ⟨path, rest, failure, cause, hpaths, hfails, rfl, hfails.context, ?_⟩⟩
    · rw [runBatchWith, run_bind_error hrun]
    · rw [hpaths, ← List.length_map (f := Turn.path), List.take_left]
    · rw [infos_append, infos_turns, hfails.infos_log, List.append_nil]

/-- two scripts with a marker each -/
def markedTree : Files.Tree :=
  [(["a.tsx".toList], .file (.text "const a = <p $x/>;".toList)),
   (["b.tsx".toList], .file (.text "const b = <p $y/>;".toList))]

/-- the same scripts behind the rewrite of the first one -/
def markedTreeAfter : Files.Tree :=
  [(["a.tsx".toList], .file (.text "const a = <p class=\x7b\x60x\x60\x7d/>;\n".toList)),
   (["b.tsx".toList], .file (.text "const b = <p $y/>;".toList))]

/-- the second turn of a file sees what the first one wrote, and nothing is written behind the path that leads nowhere;
neither is anything in a run without its settings -/
theorem runBatch_turns_failing :
    let before : World := { tree := markedTree }
    let r : Request := ⟨some "s.toml".toList, false, ["*.tsx".toList]⟩
    let lost : Failure := .config "s.toml".toList (.file .notFound)
    (∃ turns log,
      (runBatch .standard false ["a.tsx".toList, "/a.tsx".toList, "c.tsx".toList, "b.tsx".toList]).run.run before =
        (.error (.read "c.tsx".toList .notFound), ⟨{ tree := markedTreeAfter }, log⟩) ∧
      Turns (.standard .standard) before.toDisk turns { tree := markedTreeAfter } ∧
      infos log = [.rewrote "a.tsx".toList false]) ∧
      FailsBefore .standard r before lost ∧ ((run r).run.run before).2.tree = markedTree := by
  intro before r lost
  let paths := ["a.tsx".toList, "/a.tsx".toList, "c.tsx".toList, "b.tsx".toList]
  have hresult : (((runBatch .standard false paths).run.run before).1 : Except Failure Summary) =
      .error (.read "c.tsx".toList .notFound) := by decide +kernel
  have hdisk : ((runBatch .standard false paths).run.run before).2.toDisk = { tree := markedTreeAfter } := by
    decide +kernel
  have hinfos : infos ((runBatch .standard false paths).run.run before).2.events = [.rewrote "a.tsx".toList false] := by
    decide +kernel
  have hlost : FailsBefore .standard r before lost := .inl rfl
  obtain ⟨⟨turns, after, log, result, hrun, hturns, -⟩, hbefore⟩ :=
    runBatch_turns .standard (.standard .standard) paths before
  rw [runBatch, hrun] at hresult hdisk hinfos
  subst hresult hdisk
  exact ⟨⟨turns, log, hrun, hturns, hinfos⟩, hlost, congrArg Disk.tree (hbefore r lost hlost).2⟩

end TerseStyle.Batch
