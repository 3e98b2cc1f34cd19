/-
Paths, their order and what they lead to. The order of paths is a strict order of their components, so that of paths in
ascending order no two have the same components. A path that never goes up spells the way down from where it starts to
where it leads, and nothing else: two such paths to one file that start alike have the same components.

Results:
- `pathBefore_trans`, `pathBefore_total`: of two paths with different components one comes before the other.
- `locate_eq_ok`: the components of a path tell where it leads, if anywhere.
- `components_eq_of_locate`: paths without steps up that start alike and lead to one place.
-/
import Mathlib.Data.Char
import Mathlib.Data.List.Lex
import TerseStyle.Files.Tree

namespace TerseStyle.Files

/-! ## Order -/

variable {t u : Text} {p q r : Text}

theorem textBefore_iff : textBefore t u = true ↔ t < u := by
  have hnil : ¬ ([] : Text) < [] := lt_irrefl _
  induction t generalizing u with
  | nil =>
    cases u with
    | nil => simp [textBefore]
    | cons d u => simp [textBefore]
  | cons c t ih =>
    cases u with
    | nil => simp [textBefore]
    | cons d u => simp [textBefore, ih, List.cons_lt_cons_iff]

/-- the order of components -/
instance : IsStrictTotalOrder Component fun a b => a.before b = true where
  trichotomous a b := by
    cases a <;> cases b <;> simp [Component.before, Component.rank, textBefore_iff]
    exact fun h h' => le_antisymm h' h
  irrefl a := by
    cases a <;> simp [Component.before, Component.rank, textBefore_iff]
  trans a b c := by
    cases a <;> cases b <;> cases c <;> simp [Component.before, Component.rank, textBefore_iff]
    exact lt_trans

theorem componentsBefore_iff {a b : List Component} :
    componentsBefore a b = true ↔ List.Lex (fun a b => a.before b = true) a b := by
  induction a generalizing b with
  | nil => cases b <;> simp [componentsBefore]
  | cons c a ih =>
    cases b with
    | nil => simp [componentsBefore]
    | cons d b => simp [componentsBefore, ih, List.cons_lex_cons_iff]

instance : IsStrictTotalOrder (List Component) (List.Lex fun a b => a.before b = true) :=
  { isStrictWeakOrder_of_isOrderConnected with }

theorem samePath_iff : samePath p q = true ↔ components p = components q := decide_eq_true_iff

theorem pathBefore_iff :
    pathBefore p q = true ↔ List.Lex (fun a b => a.before b = true) (components p) (components q) :=
  componentsBefore_iff

theorem pathBefore_trans (h : pathBefore p q = true) (h' : pathBefore q r = true) : pathBefore p r = true := by
  rw [pathBefore_iff] at h h' ⊢
  exact IsTrans.trans _ _ _ h h'

theorem components_ne_of_pathBefore (h : pathBefore p q = true) : components p ≠ components q := by
  rw [pathBefore_iff] at h
  intro heq
  rw [heq] at h
  exact irrefl _ h

/-- of two paths with different components one comes before the other -/
theorem pathBefore_total (h : components p ≠ components q) : pathBefore p q = true ∨ pathBefore q p = true := by
  rw [pathBefore_iff, pathBefore_iff]
  rcases trichotomous_of (List.Lex fun a b => Component.before a b = true) (components p) (components q) with
    hlt | heq | hgt
  · exact .inl hlt
  · exact absurd heq h
  · exact .inr hgt

/-! ## Where a path leads -/

variable {disk : Disk} {tree : Tree} {here location : Location} {path : Text}

/-- where a component leads from a location -/
def Component.follow (here : Location) : Component → Location
  | .name t => here ++ [t]
  | .parent => here.dropLast
  | .current => here
  | .root => []

theorem step_eq_ok {piece : Text} (h : tree.step here piece = .ok location) :
    location = (component? piece).toList.foldl Component.follow here := by
  unfold Tree.step at h
  unfold component?
  split at h
  · cases h
  · cases h
  · split at h
    · rename_i hnone
      rw [if_pos hnone]
      cases h
      rfl
    · rename_i hsome
      rw [if_neg hsome]
      split at h
      · rename_i hup
        rw [if_pos hup]
        cases h
        rfl
      · rename_i hup
        rw [if_neg hup]
        split at h <;> cases h
        rfl

theorem walk_eq_ok {pieces : List Text} (h : tree.walk here pieces = .ok location) :
    location = (pieces.filterMap component?).foldl Component.follow here := by
  induction pieces generalizing here with
  | nil =>
    cases h
    rfl
  | cons piece rest ih =>
    unfold Tree.walk at h
    cases hstep : tree.step here piece with
    | error fault =>
      rw [hstep] at h
      cases h
    | ok next =>
      rw [hstep] at h
      rw [ih h, step_eq_ok hstep, ← List.foldl_append]
      cases hpiece : component? piece <;> simp [hpiece]

/-- the front of a path leads to where its steps begin -/
theorem foldl_follow_lead (disk : Disk) (path : Text) :
    (lead path).foldl Component.follow disk.directory = disk.start path := by
  unfold lead Disk.start
  split
  · rfl
  · split <;> rfl

theorem walk_of_locate (h : disk.locate path = .ok location) :
    disk.tree.walk (disk.start path) (cutAtSlashes path) = .ok location := by
  unfold Disk.locate at h
  split at h
  · cases h
  · split at h
    · cases h
    · exact h

/-- where a path leads, if anywhere, its components tell -/
theorem locate_eq_ok (h : disk.locate path = .ok location) :
    location = (components path).foldl Component.follow disk.directory := by
  rw [components, List.foldl_append, foldl_follow_lead]
  exact walk_eq_ok (walk_of_locate h)

theorem locate_unique {location' : Location} (hp : disk.locate p = .ok location) (hq : disk.locate q = .ok location')
    (hsame : components p = components q) : location = location' := by
  rw [locate_eq_ok hp, locate_eq_ok hq, hsame]

/-! ## Paths without steps up -/

theorem component?_eq_some {piece : Text} {c : Component} (h : component? piece = some c) :
    c = .parent ∨ c = .name piece := by
  unfold component? at h
  split at h
  · cases h
  · split at h <;> cases h
    · exact .inl rfl
    · exact .inr rfl

/-- names lead down -/
theorem foldl_follow_names {cs : List Component} (h : ∀ c ∈ cs, ∃ t, c = .name t) :
    (cs.foldl Component.follow here).map Component.name = here.map Component.name ++ cs := by
  induction cs generalizing here with
  | nil => simp
  | cons c cs ih =>
    obtain ⟨⟨t, rfl⟩, hcs⟩ := List.forall_mem_cons.1 h
    rw [List.foldl_cons, ih hcs]
    simp [Component.follow]

/-- behind its front a path without steps up has the names on the way to where it leads -/
theorem names_of_locate (hup : .parent ∉ components path) (h : disk.locate path = .ok location) :
    location.map Component.name =
      (disk.start path).map Component.name ++ (cutAtSlashes path).filterMap component? := by
  have hnames : ∀ c ∈ (cutAtSlashes path).filterMap component?, ∃ t, c = .name t := by
    intro c hc
    obtain ⟨piece, -, hpiece⟩ := List.mem_filterMap.1 hc
    rcases component?_eq_some hpiece with rfl | rfl
    · exact absurd (List.mem_append_right _ hc) hup
    · exact ⟨piece, rfl⟩
  rw [walk_eq_ok (walk_of_locate h), foldl_follow_names hnames]

theorem start_eq_of_lead (disk : Disk) (h : lead p = lead q) : disk.start p = disk.start q := by
  rw [← foldl_follow_lead, ← foldl_follow_lead, h]

/-- two paths without steps up that start alike and lead to one place have the same components -/
theorem components_eq_of_locate (hp : .parent ∉ components p) (hq : .parent ∉ components q) (hlead : lead p = lead q)
    (h : disk.locate p = .ok location) (h' : disk.locate q = .ok location) : components p = components q := by
  have hsame := (names_of_locate hp h).symm.trans (names_of_locate hq h')
  rw [start_eq_of_lead disk hlead] at hsame
  rw [components, components, hlead, List.append_cancel_left hsame]

end TerseStyle.Files
