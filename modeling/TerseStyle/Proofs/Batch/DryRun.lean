/-
A dry run and a run in place, turn by turn. The disks of the two fall apart with the first file that changes, but they
read alike at every file that is still to come, as long as no file comes twice.

Results:
- `Turn.Takes.read_apart`: a turn leaves the files still to come as they read before.
- `rewriteAll_dry`: the two runs of some turns, by induction on the paths; the disks read alike at all of them.
- `runBatch_dry`: a dry run writes nothing, and has the result and, line by line, the reports of the run in place.
-/
import Mathlib.Data.List.Forall2
import TerseStyle.Proofs.Batch.Turns

namespace TerseStyle.Batch

open Files (Disk)
open Rewrite (Rewriter)

/-! ## Reports -/

/-- an event of a dry run, and what a run in place reports instead -/
inductive Foretells : Event → Event → Prop where
  | same {e : Event} (h : e.level ≠ .info) : Foretells e e
  | rewrote (path : Text) : Foretells (.rewrote path true) (.rewrote path false)
  | finished (processed changed : Nat) :
      Foretells (.finished processed changed true) (.finished processed changed false)

/-- the counts at the end of a batch -/
def counted (processed changed : Nat) : Text :=
  "Processed ".toList ++ Text.ofNat processed ++ " file(s), ".toList ++ Text.ofNat changed

/-- an INFO line of a dry run, and the one of a run in place -/
inductive SaysInstead : Text → Text → Prop where
  | rewrote (path : Text) : SaysInstead ("Would rewrite ".toList ++ path) ("Rewrote ".toList ++ path)
  | finished (processed changed : Nat) :
      SaysInstead (counted processed changed ++ " would change".toList) (counted processed changed ++ " changed".toList)

variable {rewriter : Rewriter} {dryRun : Bool} {turn : Turn} {disk after : Disk} {path : Text} {failure : Failure}
  {log dry real : List Event}

theorem foretells_self (h : infos log = []) : List.Forall₂ Foretells log log := by
  rw [infos, List.filter_eq_nil_iff] at h
  apply List.forall₂_same.mpr
  intro e he
  exact .same (by simpa using h e he)

theorem Turn.events_foretell (rewriter : Rewriter) (turn : Turn) :
    List.Forall₂ Foretells (turn.events rewriter true) (turn.events rewriter false) := by
  unfold Turn.events
  apply List.rel_append (foretells_self (infos_rewriteEvents _))
  split
  · exact .cons (.rewrote turn.path) .nil
  · exact .nil

/-- the INFO lines of two runs correspond, since their events do -/
theorem infos_foretell (h : List.Forall₂ Foretells dry real) :
    List.Forall₂ SaysInstead ((infos dry).map Event.message) ((infos real).map Event.message) := by
  induction h with
  | nil => exact .nil
  | cons hfirst _ ih =>
    cases hfirst with
    | same hlevel => simpa [infos, hlevel] using ih
    | rewrote path => exact .cons (.rewrote path) ih
    | finished processed changed => exact .cons (.finished processed changed) ih

/-! ## Turns -/

/-- where a file can be written, its failure depends on what it reads as alone -/
theorem Fails.congr (h : Fails rewriter false disk path failure log) (hwritable : disk.Writable path)
    (hread : after.read path = disk.read path) (dryRun : Bool) : Fails rewriter dryRun after path failure log := by
  cases h with
  | read unread => exact .read (hread.trans unread)
  | rewrite read refused => exact .rewrite (hread.trans read) refused
  | write due place _ _ unwritten =>
    subst place
    obtain ⟨location, hold⟩ := Disk.read_eq_ok.mp due.read
    rw [hold.write, if_neg (hwritable location hold.located)] at unwritten
    cases unwritten

theorem Turn.Due.congr (h : turn.Due rewriter disk) (hread : after.read turn.path = disk.read turn.path) :
    turn.Due rewriter after :=
  ⟨hread.trans h.read, h.rewritten⟩

/-- no two of some paths lead to one file -/
def ApartOn (disk : Disk) (paths : List Text) : Prop := paths.Pairwise fun p q => ¬ disk.SameFile p q

theorem apartOn_congr {paths : List Text} (hshape : disk.SameShape after) (h : ApartOn disk paths) :
    ApartOn after paths :=
  h.imp fun hpq hsame => hpq ((Disk.sameFile_congr hshape).mpr hsame)

/-- a turn leaves the files of the paths behind it as they read before -/
theorem Turn.Takes.read_apart {paths : List Text} (h : turn.Takes rewriter disk after)
    (hapart : ApartOn disk (turn.path :: paths)) {q : Text} (hq : q ∈ paths) : after.read q = disk.read q := by
  obtain ⟨location, hold, hreplaced⟩ := h.replaced
  exact hreplaced.read_apart hold (List.rel_of_pairwise_cons hapart hq)

/-- the turns of some paths, dry and in place: the disks may differ, but not in what these paths read as -/
theorem rewriteAll_dry (rewriter : Rewriter) (paths : List Text) (s : Summary) (w v : World)
    (hapart : ApartOn v.toDisk paths) (hwritable : ∀ path ∈ paths, v.Writable path)
    (hread : ∀ path ∈ paths, w.read path = v.read path) :
    ∃ result after dry real,
      (rewriteAll rewriter true s paths).run.run w = (result, ⟨w.toDisk, w.events ++ dry⟩) ∧
        (rewriteAll rewriter false s paths).run.run v = (result, ⟨after, v.events ++ real⟩) ∧
        List.Forall₂ Foretells dry real := by
  induction paths generalizing s w v with
  | nil =>
    refine ⟨.ok s, v.toDisk, [], [], ?_, ?_, .nil⟩
    · rw [List.append_nil]
      rfl
    · rw [List.append_nil]
      rfl
  | cons path rest ih =>
    have hhere := hread path List.mem_cons_self
    have hplace := hwritable path List.mem_cons_self
    rcases due_or_fails rewriter false v.toDisk path with ⟨turn, between, rfl, hdue, hleaves⟩ | ⟨failure, log, hfails⟩
    · have htakes := hdue.takes hleaves
      have hdry := rewriteFile_due (w := w) (hdue.congr hhere) (.idle (.inr rfl))
      have hreal := rewriteFile_due (w := v) hdue hleaves
      have hrest : ∀ q ∈ rest, w.read q = between.read q := by
        intro q hq
        rw [htakes.read_apart hapart hq]
        exact hread q (List.mem_cons_of_mem _ hq)
      obtain ⟨result, after, dry, real, hdry', hreal', hlog⟩ := ih
        ⟨s.processed + 1, s.changed + if turn.changed then 1 else 0⟩
        ⟨w.toDisk, w.events ++ turn.events rewriter true⟩
        ⟨between, v.events ++ turn.events rewriter false⟩
        (apartOn_congr htakes.shape hapart.of_cons)
        (fun q hq => (hwritable q (List.mem_cons_of_mem _ hq)).congr htakes.shape) hrest
      refine ⟨result, after, turn.events rewriter true ++ dry, turn.events rewriter false ++ real, ?_, ?_,
        List.rel_append (turn.events_foretell rewriter) hlog⟩
      · rw [rewriteAll, run_bind_ok hdry, hdry', List.append_assoc]
      · rw [rewriteAll, run_bind_ok hreal, hreal', List.append_assoc]
    · refine ⟨.error failure, v.toDisk, log, log, ?_, ?_, foretells_self hfails.infos_log⟩
      · rw [rewriteAll, run_bind_error (rewriteFile_fails (hfails.congr hplace hhere true))]
      · rw [rewriteAll, run_bind_error (rewriteFile_fails hfails)]

/-- **A dry run foretells the run in place.** For any rewriter, where no two paths lead to one file and all of the files
can be written, a dry run leaves the disk as it is and has the result of the run in place on the same disk: the same
counts, or the same failure of the same path. Their events correspond one by one, and so do their INFO lines. -/
theorem runBatch_dry (rewriter : Rewriter) (paths : List Text) (w : World) (hapart : ApartOn w.toDisk paths)
    (hwritable : ∀ path ∈ paths, w.Writable path) :
    ∃ result after dry real,
      (runBatchWith rewriter true paths).run.run w = (result, ⟨w.toDisk, w.events ++ dry⟩) ∧
        (runBatchWith rewriter false paths).run.run w = (result, ⟨after, w.events ++ real⟩) ∧
        List.Forall₂ Foretells dry real ∧
        List.Forall₂ SaysInstead ((infos dry).map Event.message) ((infos real).map Event.message) := by
  obtain ⟨result, after, dry, real, hdry, hreal, hlog⟩ :=
    rewriteAll_dry rewriter paths {} w w hapart hwritable fun _ _ => rfl
  cases result with
  | error failure =>
    refine ⟨.error failure, after, dry, real, ?_, ?_, hlog, infos_foretell hlog⟩
    · rw [runBatchWith, run_bind_error hdry]
    · rw [runBatchWith, run_bind_error hreal]
  | ok s =>
    have hend := List.rel_append hlog (.cons (Foretells.finished s.processed s.changed) .nil)
    refine ⟨.ok s, after, _, _, ?_, ?_, hend, infos_foretell hend⟩
    · rw [runBatchWith, run_bind_ok hdry, run_bind_ok (report_run _), List.append_assoc]
      rfl
    · rw [runBatchWith, run_bind_ok hreal, run_bind_ok (report_run _), List.append_assoc]
      rfl

/-- both runs of two scripts with a marker each, in either order of their paths -/
theorem runBatch_dry_marked :
    let paths := ["./b.tsx".toList, "/a.tsx".toList]
    let before : World := { tree := markedTree }
    ApartOn before.toDisk paths ∧ (∀ path ∈ paths, before.Writable path) ∧
      ((runBatch .standard true paths).run.run before).2.toDisk = before.toDisk ∧
      ((runBatch .standard true paths).run.run before).1 = .ok ⟨2, 2⟩ ∧
      ((runBatch .standard false paths).run.run before).1 = .ok ⟨2, 2⟩ := by
  intro paths before
  have hapart : ApartOn before.toDisk paths := by
    have hplaces : before.locate "./b.tsx".toList ≠ before.locate "/a.tsx".toList := by decide +kernel
    refine List.pairwise_pair.mpr ?_
    intro hsame
    obtain ⟨location, content, hb, ha, _⟩ := hsame
    exact hplaces (hb.trans ha.symm)
  have hwritable : ∀ path ∈ paths, before.Writable path := fun _ _ _ _ => List.not_mem_nil
  have hresult : (((runBatch .standard false paths).run.run before).1 : Except Failure Summary) = .ok ⟨2, 2⟩ := by
    decide +kernel
  obtain ⟨result, after, dry, real, hdry, hreal, -⟩ := runBatch_dry (.standard .standard) paths before hapart hwritable
  have hsame : result = .ok ⟨2, 2⟩ := (congrArg Prod.fst hreal).symm.trans hresult
  subst hsame
  have hdisk : ((runBatch .standard true paths).run.run before).2.toDisk = before.toDisk := by rw [runBatch, hdry]
  exact ⟨hapart, hwritable, hdisk, congrArg Prod.fst hdry, congrArg Prod.fst hreal⟩

end TerseStyle.Batch
