/-
What a configuration changes. A configuration file is a layer over the standard vocabulary, or takes its place, and a
chain looks up nothing but the keys of its candidates. So a file that leaves the rest of the settings alone makes no
difference to a chain without candidates under its keys.

Results:
- `load_contents`: the settings that are loaded are those of the file's contents, whatever decodes them.
- `compile_congr`: what a chain is compiled to depends on the answers to the keys of its candidates.
- `vocabulary_layers`: the answers behind a history of changes and under a file, and the chains that a file reaches.
-/
import TerseStyle.Chain.Compile
import TerseStyle.Config.File
import TerseStyle.Proofs.Vocabulary.Layers

namespace TerseStyle

/-! ## Lookups of a chain -/

namespace Chain

open Vocabulary (Alike)

variable {v w : Vocabulary} {settings other : Settings} {t : Text}

/-- a candidate looks up its own key only -/
theorem Candidate.resolve_congr {c : Candidate} (h : v.Alike w c.key) (arguments : List Argument) :
    c.resolve v arguments = c.resolve w arguments := by
  have harbitrary : ∀ a, arbitraryValue v c a = arbitraryValue w c a := fun a => by
    unfold arbitraryValue
    rw [h.2]
  unfold resolve
  rw [h.1]
  simp only [harbitrary]

theorem resolveAll_congr {candidates : List Candidate} (h : ∀ c ∈ candidates, v.Alike w c.key)
    (arguments : List Argument) : resolveAll v arguments candidates = resolveAll w arguments candidates := by
  induction candidates with
  | nil => rfl
  | cons c rest ih =>
    rw [List.forall_mem_cons] at h
    unfold resolveAll
    rw [c.resolve_congr h.1, ih h.2]

/-- the candidates of a chain, the implicit one in front; none if it cannot be run -/
def compiledCandidates (settings : Settings) (t : Text) : List Candidate :=
  match (Interpreter.preload settings.root (takeIcons settings.iconEscapes t).1 []).2 with
  | .error _ => []
  | .ok o => o.finish.candidates

/-- **What a chain is compiled to** depends on the answers to the keys of its candidates only. -/
theorem compile_congr (hroot : settings.root = other.root) (hicons : settings.iconEscapes = other.iconEscapes)
    (h : ∀ c ∈ compiledCandidates other t, settings.vocabulary.Alike other.vocabulary c.key) :
    compile settings t = compile other t := by
  unfold compile
  rw [hroot, hicons]
  unfold compiledCandidates at h
  -- both sides run the same chain, which leaves the lookups
  generalize takeIcons other.iconEscapes t = taken at h ⊢
  cases hrun : Interpreter.preload other.root taken.1 [] with
  | mk arguments result =>
    rw [hrun] at h
    cases result with
    | error fault => simp only [hrun]
    | ok o => simp only [hrun, resolve, resolveAll_congr h]

end Chain

/-! ## Files -/

namespace Config

variable {decoders : Decoders} {disk : Files.Disk} {path source : Text} {settings : Settings} {o : Overrides}

theorem Decoders.settingsOfToml_ok_iff :
    decoders.settingsOfToml source = .ok settings ↔ ∃ o, decoders.toml source = some o ∧ settings = o.settings := by
  unfold settingsOfToml
  cases decoders.toml source with
  | none => simp
  | some o => simp [eq_comm]

theorem Decoders.settingsOfJson_ok_iff :
    decoders.settingsOfJson source = .ok settings ↔ ∃ o, decoders.json source = .ok o ∧ settings = o.settings := by
  unfold settingsOfJson
  cases decoders.json source with
  | error fault => simp
  | ok o => simp [eq_comm]

/-- what is made of the text of a file -/
theorem readFile_bind_ok_iff {f : Text → Except LoadError Settings} :
    (readFile disk path >>= f) = .ok settings ↔ ∃ source, disk.read path = .ok source ∧ f source = .ok settings := by
  unfold readFile
  cases disk.read path with
  | error fault => simp [Bind.bind, Except.bind]
  | ok source => simp [Bind.bind, Except.bind]

/-- **Loading a file** gives the settings that its contents stand for, whatever decodes them. -/
theorem load_contents (h : decoders.load disk path = .ok settings) :
    ∃ source o, disk.read path = .ok source ∧ (decoders.toml source = some o ∨ decoders.json source = .ok o) ∧
      settings = o.settings := by
  unfold Decoders.load at h
  split at h
  · obtain ⟨source, hread, hsource⟩ := readFile_bind_ok_iff.1 h
    obtain ⟨o, ho, hsettings⟩ := Decoders.settingsOfToml_ok_iff.1 hsource
    exact ⟨source, o, hread, .inl ho, hsettings⟩
  · split at h
    · obtain ⟨source, hread, hsource⟩ := readFile_bind_ok_iff.1 h
      obtain ⟨o, ho, hsettings⟩ := Decoders.settingsOfJson_ok_iff.1 hsource
      exact ⟨source, o, hread, .inr ho, hsettings⟩
    · cases h

/-- the layers that a file leaves: its own vocabulary and, unless it drops it, the one it is laid over -/
theorem Overrides.layered_apply (o : Overrides) (s : Settings) :
    (o.apply s).vocabulary.Layered (o.vocabulary :: if o.replaceVocabulary then [] else [s.vocabulary]) := by
  by_cases h : o.replaceVocabulary = true
  · rw [apply, if_pos h, if_pos h]
    exact Vocabulary.layered_single o.vocabulary
  · rw [apply, if_neg h, if_neg h]
    exact (Vocabulary.layered_single s.vocabulary).extend (Vocabulary.layered_single o.vocabulary)

theorem Overrides.classOf?_apply (o : Overrides) (s : Settings) (key : Text) :
    (o.apply s).vocabulary.classOf? key =
      ((o.classes.reverse.lookup key).or (if o.replaceVocabulary then none else s.vocabulary.classes.get? key)).map
        (fun mapped => if mapped.isEmpty then key else mapped) := by
  have hfile : o.vocabulary.classes.get? key = o.classes.reverse.lookup key := Dictionary.get?_ofList _ key
  rw [(o.layered_apply s).classOf?, List.findSome?_cons, hfile]
  cases o.classes.reverse.lookup key <;> cases o.replaceVocabulary <;> simp

theorem Overrides.prefixOf?_apply (o : Overrides) (s : Settings) (key : Text) :
    (o.apply s).vocabulary.prefixOf? key =
      (o.propertyPrefixes.reverse.lookup key).or
        (if o.replaceVocabulary then none else s.vocabulary.propertyPrefixes.get? key) := by
  have hfile : o.vocabulary.propertyPrefixes.get? key = o.propertyPrefixes.reverse.lookup key :=
    Dictionary.get?_ofList _ key
  rw [(o.layered_apply s).prefixOf?, List.findSome?_cons, hfile]
  cases o.propertyPrefixes.reverse.lookup key <;> cases o.replaceVocabulary <;> simp

/-- a key that a file says nothing about is answered as by the vocabulary that the file is laid over -/
theorem Overrides.alike_apply {key : Text} (s : Settings) (hkeep : o.replaceVocabulary = false)
    (hclass : key ∉ o.classes.map Prod.fst) (hstem : key ∉ o.propertyPrefixes.map Prod.fst) :
    (o.apply s).vocabulary.Alike s.vocabulary key := by
  have hlayered := o.layered_apply s
  rw [hkeep, if_neg Bool.false_ne_true] at hlayered
  exact hlayered.alike_of_missing (Vocabulary.layered_single s.vocabulary)
    (Dictionary.get?_ofList_eq_none hclass) (Dictionary.get?_ofList_eq_none hstem)

open Chain (compiledCandidates compile) in
/-- **Layered vocabularies.** A vocabulary with a history answers a key from the last layer since its last replacement
that has the key, an empty class standing for the key itself, and has no answer if no layer has the key; laying layers
over each other in another grouping changes no answer. The settings that are loaded from a file are those of its
contents, whatever decodes them: they answer from the entries of the file first, then from the standard vocabulary unless
the file drops it. So a file that sets nothing but a vocabulary makes no difference to a chain unless it drops the
standard one or has an entry under the key of a candidate, the implicit one included. -/
theorem vocabulary_layers :
    (∀ (start : Vocabulary) (changes : List Vocabulary.Change) (key : Text),
      (start.changed changes).classOf? key =
          ((Vocabulary.layersBehind [start] changes).findSome? (·.classes.get? key)).map
            (fun mapped => if mapped.isEmpty then key else mapped) ∧
        (start.changed changes).prefixOf? key =
          (Vocabulary.layersBehind [start] changes).findSome? (·.propertyPrefixes.get? key)) ∧
      (∀ (start : Vocabulary) (before after : List Vocabulary.Change) (vs : List Vocabulary) (w : Vocabulary)
        (key : Text), Vocabulary.Grouped vs w →
        (start.changed (before ++ .extend w :: after)).Alike (start.changed (before ++ vs.map .extend ++ after)) key) ∧
      (∀ (decoders : Decoders) (disk : Files.Disk) (path : Text) (settings : Settings),
        decoders.load disk path = .ok settings →
          ∃ source o, disk.read path = .ok source ∧ (decoders.toml source = some o ∨ decoders.json source = .ok o) ∧
            settings = o.settings) ∧
      (∀ (o : Overrides) (key : Text),
        o.settings.vocabulary.classOf? key =
            ((o.classes.reverse.lookup key).or
              (if o.replaceVocabulary then none else Vocabulary.standard.classes.get? key)).map
              (fun mapped => if mapped.isEmpty then key else mapped) ∧
          o.settings.vocabulary.prefixOf? key =
            (o.propertyPrefixes.reverse.lookup key).or
              (if o.replaceVocabulary then none else Vocabulary.standard.propertyPrefixes.get? key)) ∧
      ∀ (o : Overrides) (t : Text), o.root = none → o.iconEscapes = none →
        compile o.settings t ≠ compile .standard t →
        o.replaceVocabulary = true ∨ ∃ c ∈ compiledCandidates .standard t,
          c.key ∈ o.classes.map Prod.fst ∨ c.key ∈ o.propertyPrefixes.map Prod.fst := by
  refine ⟨?_, ?_, ?_, ?_, ?_⟩
  · intro start changes key
    have hlayered := (Vocabulary.layered_single start).changed changes
    exact ⟨hlayered.classOf? key, hlayered.prefixOf? key⟩
  · intro start before after vs w key hgrouped
    -- the group and its members leave the same layers in front of those from before
    have hbefore := (Vocabulary.layered_single start).changed before
    have hone := (hbefore.extend hgrouped.layered).changed after
    have hmany := (hbefore.extendAll vs).changed after
    rw [Vocabulary.changed_append, Vocabulary.changed_append, Vocabulary.changed_append]
    exact hone.alike hmany key
  · intro decoders disk path settings
    exact load_contents
  · intro o key
    exact ⟨o.classOf?_apply .standard key, o.prefixOf?_apply .standard key⟩
  · intro o t hroot hicons hdiffer
    by_contra hnone
    obtain ⟨hkeep, hsilent⟩ := not_or.1 hnone
    apply hdiffer
    apply Chain.compile_congr
    · rw [Overrides.settings, Overrides.apply, hroot, Option.getD_none]
    · rw [Overrides.settings, Overrides.apply, hicons, Option.getD_none]
    · intro c hc
      apply o.alike_apply .standard (Bool.eq_false_iff.2 hkeep)
      · intro hclass
        exact hsilent ⟨c, hc, Or.inl hclass⟩
      · intro hstem
        exact hsilent ⟨c, hc, Or.inr hstem⟩

/-- an entry that shadows the class of `bold` by the name itself -/
def plainBold : Overrides := { classes := [("bold".toList, [])] }

/-- the text of a file with this entry -/
def plainBoldSource : Text := "[lookups]\nbold = \"\"\n".toList

/-- the disk with this file -/
def plainBoldDisk : Files.Disk := { tree := [(["c.toml".toList], .file (.text plainBoldSource))] }

theorem vocabulary_layers_bold :
    (Vocabulary.empty.changed [.replace ⟨.ofList [("bold".toList, "font-bold".toList)], .empty⟩,
        .extend plainBold.vocabulary]).classOf? "bold".toList = some "bold".toList ∧
      (Vocabulary.empty.changed [.extend (.extend plainBold.vocabulary .empty)]).Alike
        (Vocabulary.empty.changed [.extend plainBold.vocabulary, .extend .empty]) "bold".toList ∧
      Decoders.standard.load plainBoldDisk "c.toml".toList = .ok plainBold.settings ∧
      (∃ source o, plainBoldDisk.read "c.toml".toList = .ok source ∧
        (Decoders.standard.toml source = some o ∨ Decoders.standard.json source = .ok o) ∧
        plainBold.settings = o.settings) ∧
      plainBold.settings.vocabulary.classOf? "bold".toList = some "bold".toList ∧
      Chain.compile plainBold.settings "SS.row".toList = Chain.compile .standard "SS.row".toList := by
  obtain ⟨hhistory, hgrouping, hload, hfile, hdiffer⟩ := vocabulary_layers
  have hplain : Decoders.standard.load plainBoldDisk "c.toml".toList = .ok plainBold.settings := by
    have hformat : Files.extension? "c.toml".toList = some "toml".toList := by decide
    have hdecoded : Decoders.standard.toml plainBoldSource = some plainBold := by decide +kernel
    rw [Decoders.load, if_pos hformat]
    exact readFile_bind_ok_iff.2 ⟨_, rfl, Decoders.settingsOfToml_ok_iff.2 ⟨_, hdecoded, rfl⟩⟩
  refine ⟨?_, ?_, hplain, hload _ _ _ _ hplain, ?_, ?_⟩
  · exact (hhistory _ _ _).1.trans (by decide)
  · exact hgrouping .empty [] [] [plainBold.vocabulary, .empty] _ _ (.extend (.single _) (.single _))
  · exact (hfile _ _).1.trans (by decide)
  · by_contra h
    exact absurd (hdiffer _ _ rfl rfl h) (by decide +kernel)

end Config

end TerseStyle
