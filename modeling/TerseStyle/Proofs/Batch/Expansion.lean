/-
The files that patterns find. Paths are told apart by their components, and files by where paths lead. So each spelling
of a path to a file is found once, and the file as often as it is spelled: once, unless a path goes up and down again, or
one starts at the root and another one does not. What is found twice has two turns in a batch and is counted twice.

Results:
- `gathers_insertPath`, `gathers_foldl`, `expandOnto_run`: what one path adds, the paths of a pattern, and all patterns.
- `apartOn_iff`, `length_spellings_iff`: when no two of the paths found lead to one file.
- `run_counts`: a run counts what was found.
- `expand_spellings`: the files of patterns, how often each is found, and when that is once.
-/
import Mathlib.Data.List.Pairwise
import TerseStyle.Proofs.Batch.DryRun
import TerseStyle.Proofs.Files.Paths

namespace TerseStyle.Batch

open Files (Disk Matcher components lead pathBefore samePath)
open Rewrite (Rewriter)

variable {matcher : Matcher} {disk : Disk} {patterns found before after : List Text} {path p q : Text}
  {location : Files.Location} {w : World}

/-! ## Adding paths -/

/-- paths in ascending order -/
def Ascending (paths : List Text) : Prop := paths.Pairwise fun p q => pathBefore p q = true

/-- some paths are added to those found before, each spelling once -/
structure Gathers (found : List Text) (added : Text → Prop) (after : List Text) : Prop where
  ascending : Ascending after
  old : ∀ p ∈ after, p ∈ found ∨ added p
  complete : ∀ p, p ∈ found ∨ added p → ∃ q ∈ after, samePath p q = true

theorem samePath_refl (p : Text) : samePath p p = true := Files.samePath_iff.2 rfl

theorem Gathers.none (h : Ascending found) : Gathers found (fun _ => False) found where
  ascending := h
  old := fun _ hp => .inl hp
  complete := fun p hp => ⟨p, hp.resolve_right id, samePath_refl p⟩

theorem Gathers.trans {first second : Text → Prop} {between : List Text} (h : Gathers found first between)
    (h' : Gathers between second after) : Gathers found (fun p => first p ∨ second p) after where
  ascending := h'.ascending
  old := by
    intro p hp
    rcases h'.old p hp with hp | hp
    · exact (h.old p hp).imp_right .inl
    · exact .inr (.inr hp)
  complete := by
    intro p hp
    have hnext : (p ∈ found ∨ first p) ∨ second p := by
      rcases hp with hp | hp | hp
      · exact .inl (.inl hp)
      · exact .inl (.inr hp)
      · exact .inr hp
    rcases hnext with hp | hp
    · obtain ⟨q, hq, hpq⟩ := h.complete p hp
      obtain ⟨r, hr, hqr⟩ := h'.complete q (.inl hq)
      exact ⟨r, hr, Files.samePath_iff.2 ((Files.samePath_iff.1 hpq).trans (Files.samePath_iff.1 hqr))⟩
    · exact h'.complete p (.inr hp)

theorem Gathers.congr {first second : Text → Prop} (h : Gathers found first after) (heq : ∀ p, first p ↔ second p) :
    Gathers found second after := by
  obtain rfl : first = second := funext fun p => propext (heq p)
  exact h

theorem mem_insertPath (h : q ∈ insertPath path found) : q ∈ found ∨ q = path := by
  induction found with
  | nil => exact .inr (List.mem_singleton.1 h)
  | cons other rest ih =>
    unfold insertPath at h
    split at h
    · exact .inl h
    · split at h
      · rw [List.mem_cons] at h
        exact h.symm
      · rw [List.mem_cons] at h
        rcases h with rfl | h
        · exact .inl List.mem_cons_self
        · exact (ih h).imp_left (List.mem_cons_of_mem _)

theorem ascending_insertPath (h : Ascending found) : Ascending (insertPath path found) := by
  induction found with
  | nil => exact List.pairwise_singleton _ _
  | cons other rest ih =>
    obtain ⟨hother, hrest⟩ := List.pairwise_cons.1 h
    unfold insertPath
    split
    · exact h
    · rename_i hne
      split
      · rename_i hbefore
        refine List.pairwise_cons.2 ⟨fun q hq => ?_, h⟩
        rw [List.mem_cons] at hq
        rcases hq with rfl | hq
        · exact hbefore
        · exact Files.pathBefore_trans hbefore (hother q hq)
      · rename_i hbefore
        refine List.pairwise_cons.2 ⟨fun q hq => ?_, ih hrest⟩
        rcases mem_insertPath hq with hq | rfl
        · exact hother q hq
        · rw [Files.samePath_iff] at hne
          exact (Files.pathBefore_total hne).resolve_left hbefore

theorem insertPath_complete (h : p ∈ found ∨ p = path) : ∃ q ∈ insertPath path found, samePath p q = true := by
  induction found with
  | nil =>
    obtain rfl := h.resolve_left List.not_mem_nil
    exact ⟨p, List.mem_cons_self, samePath_refl p⟩
  | cons other rest ih =>
    unfold insertPath
    split
    · rename_i hsame
      rcases h with h | rfl
      · exact ⟨p, h, samePath_refl p⟩
      · exact ⟨other, List.mem_cons_self, hsame⟩
    · split
      · refine ⟨p, ?_, samePath_refl p⟩
        rw [List.mem_cons]
        exact h.symm
      · rw [List.mem_cons, or_assoc] at h
        rcases h with rfl | h
        · exact ⟨p, List.mem_cons_self, samePath_refl p⟩
        · obtain ⟨q, hq, hpq⟩ := ih h
          exact ⟨q, List.mem_cons_of_mem _ hq, hpq⟩

theorem gathers_insertPath (path : Text) (h : Ascending found) : Gathers found (· = path) (insertPath path found) where
  ascending := ascending_insertPath h
  old := fun _ => mem_insertPath
  complete := fun _ => insertPath_complete

theorem gathers_foldl (h : Ascending found) (files : List Text) :
    Gathers found (· ∈ files) (files.foldl (fun found path => insertPath path found) found) := by
  induction files generalizing found with
  | nil => exact (Gathers.none h).congr fun p => by simp
  | cons path files ih =>
    have hfirst := gathers_insertPath path h
    exact (hfirst.trans (ih hfirst.ascending)).congr fun p => by simp

/-! ## The files of patterns -/

/-- some paths match a pattern, and all of them can be read -/
def Yields (matcher : Matcher) (disk : Disk) (pattern : Text) (paths : List Text) : Prop :=
  matcher disk pattern = .ok (paths.map .ok)

instance (matcher : Matcher) (disk : Disk) (pattern : Text) (paths : List Text) :
    Decidable (Yields matcher disk pattern paths) :=
  inferInstanceAs (Decidable (_ = _))

/-- all of some texts are patterns whose paths can be read -/
def Valid (matcher : Matcher) (disk : Disk) (patterns : List Text) : Prop :=
  ∀ pattern ∈ patterns, ∃ paths, Yields matcher disk pattern paths

/-- a path that matches a pattern and leads to a file -/
def Matched (matcher : Matcher) (disk : Disk) (patterns : List Text) (path : Text) : Prop :=
  ∃ pattern ∈ patterns, ∃ paths, Yields matcher disk pattern paths ∧ path ∈ paths ∧ disk.isFile path = true

theorem Yields.unique {pattern : Text} {paths paths' : List Text} (h : Yields matcher disk pattern paths)
    (h' : Yields matcher disk pattern paths') : paths = paths' := by
  have hsame : paths.map Except.ok = paths'.map (Except.ok (ε := Text)) := Except.ok.inj (h.symm.trans h')
  exact List.map_injective_iff.2 (fun _ _ => Except.ok.inj) hsame

theorem mapM_ok {ε α : Type} (paths : List α) : (paths.map Except.ok).mapM (m := Except ε) id = .ok paths := by
  induction paths with
  | nil => rfl
  | cons path rest ih =>
    rw [List.map_cons, List.mapM_cons, ih]
    rfl

theorem Yields.pathsOf {pattern : Text} {paths : List Text} (h : Yields matcher disk pattern paths) :
    pathsOf matcher disk pattern = .ok paths := by
  rw [Batch.pathsOf, h]
  simp only [mapM_ok]
  rfl

/-- the paths that are reported as rewritten -/
def rewritten (events : List Event) : List Text :=
  events.filterMap fun
    | .rewrote path _ => some path
    | _ => none

theorem rewritten_append (a b : List Event) : rewritten (a ++ b) = rewritten a ++ rewritten b :=
  List.filterMap_append ..

theorem expandOnto_run (w : World) (hvalid : Valid matcher w.toDisk patterns) (hfound : Ascending found) :
    ∃ after events, (expandOnto matcher found patterns).run.run w = (.ok after, ⟨w.toDisk, w.events ++ events⟩) ∧
      rewritten events = [] ∧ Gathers found (Matched matcher w.toDisk patterns) after := by
  induction patterns generalizing found w with
  | nil =>
    refine ⟨found, [], ?_, rfl, (Gathers.none hfound).congr fun p => ?_⟩
    · rw [List.append_nil]
      rfl
    · simp [Matched]
  | cons pattern rest ih =>
    obtain ⟨⟨paths, hyields⟩, hrest⟩ := List.forall_mem_cons.1 hvalid
    have hfirst := gathers_foldl hfound (paths.filter w.isFile)
    have hmatched (p : Text) :
        p ∈ paths.filter w.isFile ∨ Matched matcher w.toDisk rest p ↔ Matched matcher w.toDisk (pattern :: rest) p := by
      have hhere : p ∈ paths.filter w.isFile ↔
          ∃ paths, Yields matcher w.toDisk pattern paths ∧ p ∈ paths ∧ w.isFile p = true := by
        rw [List.mem_filter]
        constructor
        · exact fun h => ⟨paths, hyields, h⟩
        · rintro ⟨paths', hyields', h⟩
          rwa [hyields.unique hyields']
      rw [hhere, Matched, Matched, List.exists_mem_cons_iff]
    have hpaths := (lift_run (pathsOf matcher w.toDisk pattern) w).trans (by rw [hyields.pathsOf])
    rw [expandOnto, run_bind_ok (get_run w), run_bind_ok hpaths]
    by_cases hnone : (paths.filter w.isFile).isEmpty = true
    · simp only [if_pos hnone]
      rw [run_bind_ok (report_run _)]
      obtain ⟨after, events, hrun, hevents, hgathers⟩ :=
        ih ⟨w.toDisk, w.events ++ [.noMatch pattern]⟩ hrest hfirst.ascending
      refine ⟨after, [.noMatch pattern] ++ events, ?_, ?_, (hfirst.trans hgathers).congr hmatched⟩
      · rw [hrun, List.append_assoc]
      · rw [rewritten_append, hevents]
        rfl
    · simp only [if_neg hnone]
      obtain ⟨after, events, hrun, hevents, hgathers⟩ := ih w hrest hfirst.ascending
      exact ⟨after, events, hrun, hevents, (hfirst.trans hgathers).congr hmatched⟩

/-! ## Spellings of a file -/

/-- a path that matches leads to the file at a location -/
def Reaches (matcher : Matcher) (disk : Disk) (patterns : List Text) (location : Files.Location) (path : Text) : Prop :=
  Matched matcher disk patterns path ∧ disk.locate path = .ok location

/-- whether a path leads to a location -/
def leadsTo (disk : Disk) (location : Files.Location) (path : Text) : Bool :=
  match disk.locate path with
  | .ok place => place = location
  | .error _ => false

/-- the spellings under which the file at a location was found -/
def spellings (disk : Disk) (found : List Text) (location : Files.Location) : List (List Files.Component) :=
  (found.filter (leadsTo disk location)).map components

theorem leadsTo_iff : leadsTo disk location path = true ↔ disk.locate path = .ok location := by
  unfold leadsTo
  split
  · rename_i place hplace
    rw [hplace, decide_eq_true_iff, Except.ok.injEq]
  · rename_i fault hfault
    rw [hfault]
    simp

theorem Matched.isFile (h : Matched matcher disk patterns path) :
    ∃ location content, disk.locate path = .ok location ∧ disk.tree.get? location = some (.file content) := by
  obtain ⟨-, -, -, -, -, hfile⟩ := h
  unfold Disk.isFile Disk.at? at hfile
  cases hlocate : disk.locate path with
  | error _ => simp [hlocate] at hfile
  | ok location =>
    simp only [hlocate] at hfile
    split at hfile
    · rename_i content hcontent
      exact ⟨location, content, rfl, hcontent⟩
    · cases hfile

/-- paths that lead to files and have the same components lead to one file -/
theorem Reaches.of_components (h : Reaches matcher disk patterns location p) (hq : Matched matcher disk patterns q)
    (hsame : components p = components q) : Reaches matcher disk patterns location q := by
  obtain ⟨place, -, hplace, -⟩ := hq.isFile
  rw [Files.locate_unique h.2 hplace hsame]
  exact ⟨hq, hplace⟩

section Found

variable (h : Gathers [] (Matched matcher disk patterns) found)

include h

theorem matched_of_mem (hp : p ∈ found) : Matched matcher disk patterns p :=
  (h.old p hp).resolve_left List.not_mem_nil

theorem nodup_components : (found.map components).Nodup := by
  rw [List.Nodup, List.pairwise_map]
  exact h.ascending.imp Files.components_ne_of_pathBefore

theorem mem_spellings_iff {cs : List Files.Component} :
    cs ∈ spellings disk found location ↔ ∃ p, Reaches matcher disk patterns location p ∧ components p = cs := by
  simp only [spellings, List.mem_map, List.mem_filter, leadsTo_iff]
  constructor
  · rintro ⟨p, ⟨hp, hlocate⟩, rfl⟩
    exact ⟨p, ⟨matched_of_mem h hp, hlocate⟩, rfl⟩
  · rintro ⟨p, hp, rfl⟩
    obtain ⟨q, hq, hpq⟩ := h.complete p (.inr hp.1)
    rw [Files.samePath_iff] at hpq
    exact ⟨q, ⟨hq, (hp.of_components (matched_of_mem h hq) hpq).2⟩, hpq.symm⟩

theorem nodup_spellings (location : Files.Location) : (spellings disk found location).Nodup :=
  (nodup_components h).sublist (List.filter_sublist.map _)

/-- a file that is found is found once where its path has one spelling -/
theorem length_spellings_iff (hsome : ∃ p, Reaches matcher disk patterns location p) :
    (spellings disk found location).length = 1 ↔
      ∀ p q, Reaches matcher disk patterns location p → Reaches matcher disk patterns location q → samePath p q = true := by
  have hnodup := nodup_spellings h location
  constructor
  · intro hone p q hp hq
    obtain ⟨cs, hcs⟩ := List.length_eq_one_iff.1 hone
    have hmem {p : Text} (hp : Reaches matcher disk patterns location p) : components p = cs := by
      rw [← List.mem_singleton, ← hcs]
      exact (mem_spellings_iff h).2 ⟨p, hp, rfl⟩
    rw [Files.samePath_iff, hmem hp, hmem hq]
  · intro hall
    obtain ⟨p, hp⟩ := hsome
    have hsame : ∀ cs ∈ spellings disk found location, cs = components p := by
      intro cs hcs
      obtain ⟨q, hq, rfl⟩ := (mem_spellings_iff h).1 hcs
      exact Files.samePath_iff.1 (hall q p hq hp)
    have hle : (spellings disk found location).length ≤ 1 := by
      rw [List.eq_replicate_of_mem hsame] at hnodup
      exact List.nodup_replicate.1 hnodup
    have hpos := List.length_pos_of_mem ((mem_spellings_iff h).2 ⟨p, hp, rfl⟩)
    omega

/-- no two of the paths found lead to one file where no file has two spellings -/
theorem apartOn_iff :
    ApartOn disk found ↔
      ∀ p q, Matched matcher disk patterns p → Matched matcher disk patterns q → disk.SameFile p q → samePath p q = true := by
  constructor
  · intro hapart p q hp hq ⟨location, content, hlocate, hlocate', hfile⟩
    obtain ⟨p', hp', hpp⟩ := h.complete p (.inr hp)
    obtain ⟨q', hq', hqq⟩ := h.complete q (.inr hq)
    rw [Files.samePath_iff] at hpp hqq ⊢
    have hreach : Reaches matcher disk patterns location p' := Reaches.of_components ⟨hp, hlocate⟩ (matched_of_mem h hp') hpp
    have hreach' : Reaches matcher disk patterns location q' := Reaches.of_components ⟨hq, hlocate'⟩ (matched_of_mem h hq') hqq
    by_contra hne
    have hne' : p' ≠ q' := by
      rintro rfl
      exact hne (hpp.trans hqq.symm)
    have hsymm : Std.Symm fun p q => ¬ disk.SameFile p q :=
      ⟨fun p q hpq ⟨location, content, hp, hq, hfile⟩ => hpq ⟨location, content, hq, hp, hfile⟩⟩
    exact List.Pairwise.forall hapart hp' hq' hne' ⟨location, content, hreach.2, hreach'.2, hfile⟩
  · intro hall
    refine h.ascending.imp_of_mem fun {p q} hp hq hbefore hsame => ?_
    exact Files.components_ne_of_pathBefore hbefore
      (Files.samePath_iff.1 (hall p q (matched_of_mem h hp) (matched_of_mem h hq) hsame))

end Found

/-- paths without steps up that start alike spell each file in one way -/
theorem samePath_of_downward (hup : ∀ p, Matched matcher disk patterns p → .parent ∉ components p)
    (hlead : ∀ p q, Matched matcher disk patterns p → Matched matcher disk patterns q → lead p = lead q)
    (hp : Reaches matcher disk patterns location p) (hq : Reaches matcher disk patterns location q) :
    samePath p q = true :=
  Files.samePath_iff.2
    (Files.components_eq_of_locate (hup p hp.1) (hup q hq.1) (hlead p q hp.1 hq.1) hp.2 hq.2)

/-! ## Counting -/

theorem rewritten_of_infos {log : List Event} (h : infos log = []) : rewritten log = [] := by
  rw [infos, List.filter_eq_nil_iff] at h
  rw [rewritten, List.filterMap_eq_nil_iff]
  intro e he
  split
  · exact absurd rfl (h _ he)
  · rfl

theorem rewritten_events (rewriter : Rewriter) (dryRun : Bool) (turn : Turn) :
    rewritten (turn.events rewriter dryRun) = if turn.changed then [turn.path] else [] := by
  rw [Turn.events, rewritten_append, rewritten_of_infos (infos_rewriteEvents _), List.nil_append]
  split <;> rfl

/-- the paths that a batch reports as rewritten are among its paths, and it counts all of these and those -/
theorem rewriteAll_counts (rewriter : Rewriter) (dryRun : Bool) (paths : List Text) (s : Summary) (w : World) :
    ∃ result after log,
      (rewriteAll rewriter dryRun s paths).run.run w = (result, ⟨after, w.events ++ log⟩) ∧
        (rewritten log).Sublist paths ∧
        ∀ s', result = .ok s' → s' = ⟨s.processed + paths.length, s.changed + (rewritten log).length⟩ := by
  induction paths generalizing s w with
  | nil =>
    refine ⟨.ok s, w.toDisk, [], ?_, .slnil, ?_⟩
    · rw [List.append_nil]
      rfl
    · rintro s' ⟨⟩
      rfl
  | cons path rest ih =>
    rcases due_or_fails rewriter dryRun w.toDisk path with ⟨turn, between, rfl, hdue, hleaves⟩ | ⟨failure, log, hfails⟩
    · obtain ⟨result, after, log, hrun, hsub, hcount⟩ := ih
        ⟨s.processed + 1, s.changed + if turn.changed then 1 else 0⟩
        ⟨between, w.events ++ turn.events rewriter dryRun⟩
      refine ⟨result, after, turn.events rewriter dryRun ++ log, ?_, ?_, fun s' hs' => ?_⟩
      · rw [rewriteAll, run_bind_ok (rewriteFile_due hdue hleaves), hrun, List.append_assoc]
      · rw [rewritten_append, rewritten_events]
        split
        · exact hsub.cons_cons _
        · exact hsub.cons _
      · rw [hcount s' hs', rewritten_append, rewritten_events, List.length_cons, List.length_append]
        cases turn.changed <;> simp <;> omega
    · have hnone := rewritten_of_infos hfails.infos_log
      refine ⟨.error failure, w.toDisk, log, ?_, ?_, ?_⟩
      · rw [rewriteAll, run_bind_error (rewriteFile_fails hfails)]
      · rw [hnone]
        exact List.nil_sublist _
      · intro s' hs'
        cases hs'

/-- a run of the files that patterns find -/
theorem run_counts {tools : Tools} {r : Request} {settings : Settings} {events : List Event}
    (hload : (loadSettings tools.decoders r.config).run.run w = (.ok settings, w))
    (hexpand : (expandWith tools.matcher r.patterns).run.run w = (.ok found, ⟨w.toDisk, w.events ++ events⟩))
    (hnone : rewritten events = []) :
    ∃ result after log, (runWith tools r).run.run w = (result, ⟨after, w.events ++ log⟩) ∧
      (rewritten log).Sublist found ∧ ∀ s, result = .ok s → s = ⟨found.length, (rewritten log).length⟩ := by
  obtain ⟨result, after, log, hrun, hsub, hcount⟩ :=
    rewriteAll_counts ⟨settings, tools.languages⟩ r.dryRun found {} ⟨w.toDisk, w.events ++ events⟩
  rw [runWith, run_bind_ok hload, run_bind_ok hexpand, runBatchWith]
  cases result with
  | error failure =>
    refine ⟨.error failure, after, events ++ log, ?_, ?_, ?_⟩
    · rw [run_bind_error hrun, List.append_assoc]
    · rw [rewritten_append, hnone]
      exact hsub
    · intro s hs
      cases hs
  | ok s =>
    have hrewritten : rewritten (events ++ (log ++ [.finished s.processed s.changed r.dryRun])) = rewritten log := by
      simp only [rewritten_append, hnone, List.nil_append]
      exact List.append_nil _
    refine ⟨.ok s, after, events ++ (log ++ [.finished s.processed s.changed r.dryRun]), ?_, ?_, fun s' hs' => ?_⟩
    · rw [run_bind_ok hrun, run_bind_ok (report_run _)]
      simp only [List.append_assoc]
      rfl
    · rw [hrewritten]
      exact hsub
    · cases hs'
      rw [hrewritten]
      simpa using hcount s rfl

/-! ## Files and their spellings -/

/-- **The files of patterns.** Whatever finds the paths of patterns, the files that valid patterns find come in ascending
order, each spelling of a path to a file once, so that a file is found as often as its paths are spelled: once where all
paths to it have the same components. No two of the paths found lead to one file where that holds of all files. It does
where no path goes up and all of them start alike; otherwise a file that is spelled twice has two turns, for a run counts
all of the paths and has no other turns. -/
theorem expand_spellings (tools : Tools) (w : World) (patterns : List Text)
    (hvalid : Valid tools.matcher w.toDisk patterns) :
    ∃ found events,
      (expandWith tools.matcher patterns).run.run w = (.ok found, ⟨w.toDisk, w.events ++ events⟩) ∧
      Ascending found ∧ (∀ p ∈ found, Matched tools.matcher w.toDisk patterns p) ∧
      (∀ location, (spellings w.toDisk found location).Nodup ∧
        (∀ cs, cs ∈ spellings w.toDisk found location ↔
          ∃ p, Reaches tools.matcher w.toDisk patterns location p ∧ components p = cs) ∧
        ((∃ p, Reaches tools.matcher w.toDisk patterns location p) →
          ((spellings w.toDisk found location).length = 1 ↔
            ∀ p q, Reaches tools.matcher w.toDisk patterns location p →
              Reaches tools.matcher w.toDisk patterns location q → samePath p q = true))) ∧
      (ApartOn w.toDisk found ↔ ∀ p q, Matched tools.matcher w.toDisk patterns p →
        Matched tools.matcher w.toDisk patterns q → w.SameFile p q → samePath p q = true) ∧
      ((∀ p, Matched tools.matcher w.toDisk patterns p → .parent ∉ components p) →
        (∀ p q, Matched tools.matcher w.toDisk patterns p → Matched tools.matcher w.toDisk patterns q →
          lead p = lead q) →
        ApartOn w.toDisk found ∧ ∀ location, (∃ p, Reaches tools.matcher w.toDisk patterns location p) →
          (spellings w.toDisk found location).length = 1) ∧
      ∀ (r : Request) (settings : Settings), r.patterns = patterns →
        (loadSettings tools.decoders r.config).run.run w = (.ok settings, w) →
          ∃ result after log, (runWith tools r).run.run w = (result, ⟨after, w.events ++ log⟩) ∧
            (rewritten log).Sublist found ∧ ∀ s, result = .ok s → s = ⟨found.length, (rewritten log).length⟩ := by
  obtain ⟨found, events, hrun, hevents, h⟩ := expandOnto_run w hvalid List.Pairwise.nil
  refine ⟨found, events, hrun, h.ascending, fun p => matched_of_mem h, fun location => ?_, apartOn_iff h,
    fun hup hlead => ⟨(apartOn_iff h).2 ?_, fun location hsome => (length_spellings_iff h hsome).2 ?_⟩, ?_⟩
  · exact ⟨nodup_spellings h location, fun cs => mem_spellings_iff h, length_spellings_iff h⟩
  · intro p q hp hq ⟨location, content, hlocate, hlocate', hfile⟩
    exact samePath_of_downward hup hlead ⟨hp, hlocate⟩ ⟨hq, hlocate'⟩
  · exact fun p q => samePath_of_downward hup hlead
  · rintro r settings rfl hload
    exact run_counts hload hrun hevents

/-- one script in a directory below the working directory -/
def nestedDisk : Disk where
  tree := [(["w".toList], .directory), (["w".toList, "src".toList], .directory),
    (["w".toList, "src".toList, "a.tsx".toList], .file (.text "const a = <p/>;\n".toList))]
  directory := ["w".toList]

/-- a file that is spelled with a step up as well, or from the root, is found and counted twice, and with a dot in front
but once -/
theorem expand_spellings_up :
    let before : World := { toDisk := nestedDisk }
    let up := ["src/a.tsx".toList, "src/../src/a.tsx".toList]
    let rooted := ["src/a.tsx".toList, "/w/src/a.tsx".toList]
    let plain := ["./src/a.tsx".toList, "src/*.tsx".toList]
    Valid Tools.standard.matcher nestedDisk up ∧
      (∃ found, ((expand up).run.run before).1 = .ok found ∧ ¬ ApartOn nestedDisk found) ∧
      ((run ⟨none, false, up⟩).run.run before).1 = .ok ⟨2, 0⟩ ∧
      ((run ⟨none, false, rooted⟩).run.run before).1 = .ok ⟨2, 0⟩ ∧
      Valid Tools.standard.matcher nestedDisk plain ∧
      ∃ found, ((expand plain).run.run before).1 = .ok found ∧ ApartOn nestedDisk found := by
  intro before up rooted plain
  let script := "src/a.tsx".toList
  have hfirst : Yields Tools.standard.matcher nestedDisk "src/a.tsx".toList [script] := by decide +kernel
  have hsecond : Yields Tools.standard.matcher nestedDisk "src/../src/a.tsx".toList ["src/../src/a.tsx".toList] := by
    decide +kernel
  have hdot : Yields Tools.standard.matcher nestedDisk "./src/a.tsx".toList [script] := by decide +kernel
  have hstar : Yields Tools.standard.matcher nestedDisk "src/*.tsx".toList [script] := by decide +kernel
  have hup : Valid Tools.standard.matcher nestedDisk up :=
    List.forall_mem_cons.2 ⟨⟨_, hfirst⟩, List.forall_mem_singleton.2 ⟨_, hsecond⟩⟩
  have hplain : Valid Tools.standard.matcher nestedDisk plain :=
    List.forall_mem_cons.2 ⟨⟨_, hdot⟩, List.forall_mem_singleton.2 ⟨_, hstar⟩⟩
  have hmatched {p : Text} (hp : Matched Tools.standard.matcher nestedDisk plain p) : p = script := by
    obtain ⟨pattern, hpattern, paths, hyields, hp, -⟩ := hp
    have hpaths : paths = [script] := by
      rcases List.mem_pair.1 hpattern with rfl | rfl
      · exact hyields.unique hdot
      · exact hyields.unique hstar
    rwa [hpaths, List.mem_singleton] at hp
  obtain ⟨found, events, hrun, -, -, -, hapart, -⟩ := expand_spellings .standard before up hup
  obtain ⟨found', events', hrun', -, -, -, -, hdown, -⟩ := expand_spellings .standard before plain hplain
  refine ⟨hup, ⟨found, by rw [expand, hrun], ?_⟩, by decide +kernel, by decide +kernel, hplain, found',
    by rw [expand, hrun'], ?_⟩
  · intro h
    have hplace : Matched Tools.standard.matcher nestedDisk up script :=
      ⟨_, List.mem_cons_self, _, hfirst, List.mem_cons_self, by decide⟩
    have hplace' : Matched Tools.standard.matcher nestedDisk up "src/../src/a.tsx".toList :=
      ⟨_, List.mem_cons_of_mem _ List.mem_cons_self, _, hsecond, List.mem_cons_self, by decide⟩
    have hsame : samePath script "src/../src/a.tsx".toList = true :=
      hapart.1 h _ _ hplace hplace'
        ⟨["w".toList, "src".toList, "a.tsx".toList], _, by decide, by decide, rfl⟩
    exact absurd hsame (by decide)
  · refine (hdown (fun p hp => ?_) (fun p q hp hq => ?_)).1
    · rw [hmatched hp]
      decide
    · rw [hmatched hp, hmatched hq]

end TerseStyle.Batch
