import PromqlAssist.Proofs.Text.CharClass
import PromqlAssist.Settings.Basic

/-!
# Vocabularies of identifiers

The names of the vocabulary that settings make are identifiers if the settings have no fault: those
that are always known are, and declarations add nothing but the names that they declare.
-/

namespace PromqlAssist

open Text

/-- The names of a vocabulary are identifiers. -/
structure Vocabulary.HasIdentifiers (v : Vocabulary) : Prop where
  metric : ∀ m ∈ v.metrics, Settings.isMetricName m
  label : ∀ e ∈ v.labels, ∀ l ∈ e.2, Settings.isLabelName l

/-- The names of a declaration are identifiers. -/
structure Declaration.HasIdentifiers (d : Declaration) : Prop where
  metric : Settings.isMetricName d.metric
  label : ∀ labels ∈ d.labels?, ∀ l ∈ labels, Settings.isLabelName l

namespace Settings

variable {name : String}

theorem isIdent_of_isMetricNameStart {c : Char} (h : isMetricNameStart c) : isIdent c := by
  simp only [isMetricNameStart, Bool.or_eq_true, decide_eq_true_eq] at h
  rcases h with (rfl | rfl) | h
  · rfl
  · rfl
  · simp [isIdent, Char.isAlphanum, h]

/-- A metric name is a word. -/
theorem isIdent_of_isMetricName (h : isMetricName name) :
    name.toList ≠ [] ∧ ∀ c ∈ name.toList, isIdent c := by
  unfold isMetricName at h
  split at h
  · rename_i d rest heq
    obtain ⟨hstart, hrest⟩ := Bool.and_eq_true_iff.mp h
    rw [heq]
    refine ⟨List.cons_ne_nil d rest, ?_⟩
    intro c hc
    rcases List.mem_cons.mp hc with rfl | hc
    · exact isIdent_of_isMetricNameStart hstart
    · rcases Bool.or_eq_true_iff.mp (List.all_eq_true.mp hrest c hc) with hchar | hchar
      · exact isIdent_of_isMetricNameStart hchar
      · exact isIdent_of_isDigit hchar
  · cases h

theorem isMetricName_of_isLabelName (h : isLabelName name) : isMetricName name :=
  (Bool.and_eq_true_iff.mp h).1

end Settings

variable {x y : String} {xs new : List String} {v : Vocabulary} {d : Declaration}

theorem mem_insertNew : x ∈ insertNew y xs ↔ x = y ∨ x ∈ xs := by
  unfold insertNew
  split
  · rename_i hy
    constructor
    · exact .inr
    · rintro (rfl | hx)
      · exact hy
      · exact hx
  · rw [List.mem_append, List.mem_singleton, or_comm]

theorem mem_insertSorted : x ∈ insertSorted y xs ↔ x = y ∨ x ∈ xs := by
  induction xs with
  | nil => simp [insertSorted]
  | cons z zs ih =>
    unfold insertSorted
    split
    · exact List.mem_cons
    · split
      · rename_i heq
        rw [List.mem_cons, heq, or_self_left]
      · rw [List.mem_cons, ih, List.mem_cons, or_left_comm]

/-- What is put into a list one by one was there or is new. -/
theorem mem_foldl_insert {insert : String → List String → List String}
    (hinsert : ∀ {x y xs}, x ∈ insert y xs ↔ x = y ∨ x ∈ xs) :
    x ∈ new.foldl (fun xs y => insert y xs) xs ↔ x ∈ new ∨ x ∈ xs := by
  induction new generalizing xs with
  | nil => simp
  | cons y new ih => rw [List.foldl_cons, ih, hinsert, List.mem_cons, or_left_comm, or_assoc]

namespace Vocabulary

theorem mem_addLabels {metric : String} {labels : List (String × List String)}
    {e : String × List String} (h : e ∈ addLabels metric new labels) :
    ∀ l ∈ e.2, l ∈ new ∨ ∃ e' ∈ labels, l ∈ e'.2 := by
  induction labels with
  | nil =>
    intro l hl
    obtain rfl := List.mem_singleton.mp h
    exact ((mem_foldl_insert mem_insertNew).mp hl).imp_right fun hnone => nomatch hnone
  | cons e' rest ih =>
    intro l hl
    unfold addLabels at h
    split at h
    · rcases List.mem_cons.mp h with rfl | h
      · refine ((mem_foldl_insert mem_insertNew).mp hl).imp_right ?_
        intro hold
        exact ⟨e', List.mem_cons_self, hold⟩
      · exact .inr ⟨e, List.mem_cons_of_mem e' h, hl⟩
    · rcases List.mem_cons.mp h with rfl | h
      · exact .inr ⟨_, List.mem_cons_self, hl⟩
      · refine (ih h l hl).imp_right ?_
        rintro ⟨e'', hmem, hold⟩
        exact ⟨e'', List.mem_cons_of_mem e' hmem, hold⟩

namespace HasIdentifiers

theorem empty : HasIdentifiers .empty := by
  constructor
  · intro m hm
    cases hm
  · intro e he
    cases he

theorem declare (h : v.HasIdentifiers) (hd : d.HasIdentifiers) : (v.declare d).HasIdentifiers := by
  constructor
  · intro m hm
    rcases mem_insertNew.mp hm with rfl | hm
    · exact hd.metric
    · exact h.metric m hm
  · intro e he l hl
    unfold Vocabulary.declare at he
    cases hlabels : d.labels? with
    | none =>
      rw [hlabels] at he
      exact h.label e he l hl
    | some labels =>
      rw [hlabels] at he
      rcases mem_addLabels he l hl with hnew | ⟨e', he', hold⟩
      · exact hd.label labels hlabels l hnew
      · exact h.label e' he' l hold

theorem declareAll {ds : List Declaration} (h : v.HasIdentifiers)
    (hds : ∀ d ∈ ds, d.HasIdentifiers) : (ds.foldl Vocabulary.declare v).HasIdentifiers := by
  induction ds generalizing v with
  | nil => exact h
  | cons d ds ih =>
    exact ih (h.declare (hds d List.mem_cons_self)) fun d' hd' => hds d' (List.mem_cons_of_mem d hd')

theorem builtin : HasIdentifiers .builtin := by
  have hnames : ∀ e ∈ builtinMetrics, Settings.isMetricName e.1 ∧
      ∀ l ∈ e.2, Settings.isLabelName l := by
    simp [builtinMetrics, Settings.isMetricName, Settings.isLabelName, Settings.isMetricNameStart]
  have hfold : Vocabulary.builtin =
      (builtinMetrics.map fun e => (⟨e.1, some e.2⟩ : Declaration)).foldl Vocabulary.declare .empty :=
    (List.foldl_map ..).symm
  rw [hfold]
  apply empty.declareAll
  intro d hd
  obtain ⟨e, he, rfl⟩ := List.mem_map.mp hd
  obtain ⟨hmetric, hlabel⟩ := hnames e he
  refine ⟨hmetric, ?_⟩
  intro labels hlabels
  obtain rfl := Option.some.inj hlabels
  exact hlabel

theorem label_of_mem_allLabels (h : v.HasIdentifiers) (hx : x ∈ v.allLabels) :
    Settings.isLabelName x := by
  rcases (mem_foldl_insert mem_insertSorted).mp hx with hx | hx
  · obtain ⟨e, he, hx⟩ := List.mem_flatMap.mp hx
    exact h.label e he x hx
  · cases hx

theorem label_of_labelsOf? {metric : String} {labels : List String} (h : v.HasIdentifiers)
    (hlabels : v.labelsOf? metric = some labels) (hx : x ∈ labels) : Settings.isLabelName x := by
  obtain ⟨front, behind, heq, -⟩ := List.lookup_eq_some_iff.mp hlabels
  exact h.label (metric, labels) (by simp [heq]) x hx

end HasIdentifiers

end Vocabulary

namespace Settings

/-- Settings without a fault name identifiers only. -/
theorem names_of_fault?_eq_none {s : Settings} (h : s.fault? = none) :
    (∀ m ∈ s.extraMetrics ++ s.labels.map (·.1), isMetricName m) ∧
      ∀ e ∈ s.labels, ∀ l ∈ e.2, isLabelName l := by
  unfold fault? at h
  split at h
  · cases h
  dsimp only at h
  simp only [Option.orElse_eq_or, Option.or_eq_none_iff] at h
  obtain ⟨hmetrics, hlabels, -⟩ := h
  constructor
  · intro m hm
    simpa using List.find?_eq_none.mp (Option.map_eq_none_iff.mp hmetrics) m hm
  · intro e he l hl
    have hnone := List.findSome?_eq_none_iff.mp hlabels e he
    simpa using List.find?_eq_none.mp (Option.map_eq_none_iff.mp hnone) l hl

/-- Settings without a fault make a vocabulary of identifiers. -/
theorem hasIdentifiers_vocabulary {s : Settings} (h : s.fault? = none) :
    s.vocabulary.HasIdentifiers := by
  obtain ⟨hmetrics, hlabels⟩ := names_of_fault?_eq_none h
  apply Vocabulary.HasIdentifiers.builtin.declareAll
  intro d hd
  rcases List.mem_append.mp hd with hd | hd
  · obtain ⟨m, hm, rfl⟩ := List.mem_map.mp hd
    refine ⟨hmetrics m (List.mem_append_left _ hm), ?_⟩
    intro labels hlookup
    obtain ⟨front, behind, heq, -⟩ := List.lookup_eq_some_iff.mp hlookup
    exact hlabels (m, labels) (by simp [heq])
  · obtain ⟨e, he, rfl⟩ := List.mem_map.mp hd
    have hmem : e ∈ s.labels := (List.mem_filter.mp he).1
    refine ⟨hmetrics e.1 (List.mem_append_right _ (List.mem_map.mpr ⟨e, hmem, rfl⟩)), ?_⟩
    intro labels hsome
    obtain rfl := Option.some.inj hsome
    exact hlabels e hmem

end Settings

end PromqlAssist
