import Mathlib.Data.List.Sort
import PromqlAssist.Proofs.Keyed
import PromqlAssist.Proofs.Vocabulary.Identifiers

/-!
# Declarations as a union

A vocabulary with declarations is the union of the builtin one and of what is declared. The metrics
and the labels of each metric are lists with an order: what is builtin comes first, and what is new
follows in the order of its first declaration. One declaration puts its names behind those that are
there (`labelsOf?_declare`), from which a run of declarations collects them (`labelsOf?_foldl`).

Settings declare their extra metrics and their labels apart, and may declare the labels of an extra
metric many times. All declarations of a metric carry the same labels, so that the union is that of
the builtin and the configured labels (`labelsOf?_vocabulary`), whatever the extra metrics are.
-/

namespace PromqlAssist

/-- A list followed by what is new in another one, each element once and in the order of its first
occurrence. -/
def orderedUnion (xs ys : List String) : List String :=
  xs ++ (ys.removeAll xs).eraseDups

namespace Declaration

/-- The labels that a declaration gives to a metric. -/
def gives? (metric : String) (d : Declaration) : Option (List String) :=
  if d.metric = metric then d.labels? else none

/-- The lists of labels that are given to a metric, in the order of the declarations. -/
def given (metric : String) (ds : List Declaration) : List (List String) :=
  ds.filterMap (gives? metric)

end Declaration

namespace Vocabulary

/-- The metrics that are always known. -/
def builtinNames : List String :=
  builtinMetrics.map (·.1)

/-- The labels that a metric always has. -/
def builtinLabels? (metric : String) : Option (List String) :=
  builtinMetrics.lookup metric

/-- The vocabulary with declarations is the union of the builtin one and of what they declare. -/
structure UnionLaw (ds : List Declaration) : Prop where
  metrics_eq : (extended ds).metrics = orderedUnion builtinNames (ds.map (·.metric))
  metrics_nodup : (extended ds).metrics.Nodup
  labelsOf?_eq_none : ∀ m, (extended ds).labelsOf? m = none ↔
    builtinLabels? m = none ∧ ∀ d ∈ ds, d.metric = m → d.labels? = none
  labelsOf?_eq : ∀ m ls, (extended ds).labelsOf? m = some ls →
    ls = orderedUnion ((builtinLabels? m).getD []) (Declaration.given m ds).flatten
  labelsOf?_nodup : ∀ m ls, (extended ds).labelsOf? m = some ls → ls.Nodup
  allLabels_increasing : (extended ds).allLabels.Pairwise (· < ·)
  mem_allLabels : ∀ l, l ∈ (extended ds).allLabels ↔
    ∃ m ls, (extended ds).labelsOf? m = some ls ∧ l ∈ ls

end Vocabulary

/-- The vocabulary of settings knows what they name, with the union of the builtin and the
configured labels. The extra metrics have no part in the labels, in whatever order they come and
however often. -/
structure Settings.UnionLaw (s : Settings) : Prop where
  isMetric_iff : ∀ m, s.vocabulary.isMetric m ↔
    m ∈ Vocabulary.builtinNames ∨ m ∈ s.extraMetrics ∨ m ∈ s.labels.map (·.1)
  labelsOf?_eq_none : ∀ m, s.vocabulary.labelsOf? m = none ↔
    Vocabulary.builtinLabels? m = none ∧ s.labels.lookup m = none
  labelsOf?_eq : ∀ m ls, s.vocabulary.labelsOf? m = some ls →
    ls = orderedUnion ((Vocabulary.builtinLabels? m).getD []) ((s.labels.lookup m).getD [])
  labelsOf?_extra : ∀ extra m,
    { s with extraMetrics := extra }.vocabulary.labelsOf? m = s.vocabulary.labelsOf? m
  allLabels_extra : ∀ extra,
    { s with extraMetrics := extra }.vocabulary.allLabels = s.vocabulary.allLabels

section OrderedUnion

variable {x : String} {xs ys : List String} {lss : List (List String)}

theorem nodup_insertNew (h : xs.Nodup) : (insertNew x xs).Nodup := by
  unfold insertNew
  split
  · exact h
  · rename_i hx
    rw [← List.concat_eq_append]
    exact h.concat hx

/-- Putting the elements of a list into another one by one makes their union. -/
theorem foldl_insertNew (xs ys : List String) :
    ys.foldl (fun xs y => insertNew y xs) xs = orderedUnion xs ys := by
  induction ys generalizing xs with
  | nil => simp [orderedUnion]
  | cons y ys ih =>
    rw [List.foldl_cons, ih]
    by_cases hy : y ∈ xs
    · simp [insertNew, orderedUnion, List.cons_removeAll, hy]
    · have hrest : ys.removeAll (xs ++ [y]) = (ys.removeAll xs).filter fun z => !z == y := by
        simp [List.removeAll, List.filter_filter, beq_eq_decide, Bool.and_comm]
      simp [insertNew, orderedUnion, List.cons_removeAll, List.eraseDups_cons, hy, hrest]

theorem mem_orderedUnion : x ∈ orderedUnion xs ys ↔ x ∈ xs ∨ x ∈ ys := by
  rw [← foldl_insertNew, mem_foldl_insert mem_insertNew, or_comm]

theorem nodup_orderedUnion (h : xs.Nodup) : (orderedUnion xs ys).Nodup := by
  rw [← foldl_insertNew]
  induction ys generalizing xs with
  | nil => exact h
  | cons y ys ih => exact ih (nodup_insertNew h)

@[simp] theorem orderedUnion_nil (xs : List String) : orderedUnion xs [] = xs := by
  simp [orderedUnion]

theorem orderedUnion_append (xs ys zs : List String) :
    orderedUnion xs (ys ++ zs) = orderedUnion (orderedUnion xs ys) zs := by
  simp only [← foldl_insertNew, List.foldl_append]

theorem orderedUnion_of_subset (h : ys ⊆ xs) : orderedUnion xs ys = xs := by
  have hnone : ys.removeAll xs = [] := by
    apply List.filter_eq_nil_iff.mpr
    intro y hy
    simpa using h hy
  rw [orderedUnion, hnone, List.eraseDups_nil, List.append_nil]

/-- To add the same list again adds nothing. -/
theorem orderedUnion_flatten (hall : ∀ ls ∈ lss, ls = ys) (hne : lss ≠ []) :
    orderedUnion xs lss.flatten = orderedUnion xs ys := by
  cases lss with
  | nil => exact absurd rfl hne
  | cons ls rest =>
    obtain rfl := hall ls List.mem_cons_self
    rw [List.flatten_cons, orderedUnion_append]
    apply orderedUnion_of_subset
    intro l hl
    obtain ⟨ls', hls', hl⟩ := List.mem_flatten.mp hl
    obtain rfl := hall ls' (List.mem_cons_of_mem ls hls')
    exact mem_orderedUnion.mpr (.inr hl)

end OrderedUnion

section Sorted

variable {x : String} {xs : List String}

theorem pairwise_insertSorted (h : xs.Pairwise (· < ·)) :
    (insertSorted x xs).Pairwise (· < ·) := by
  induction xs with
  | nil => exact List.pairwise_singleton _ x
  | cons y ys ih =>
    obtain ⟨hy, hys⟩ := List.pairwise_cons.mp h
    unfold insertSorted
    split
    · rename_i hlt
      refine List.pairwise_cons.mpr ⟨?_, h⟩
      intro z hz
      rcases List.mem_cons.mp hz with rfl | hz
      · exact hlt
      · exact String.lt_trans hlt (hy z hz)
    · split
      · exact h
      · rename_i hle hne
        refine List.pairwise_cons.mpr ⟨?_, ih hys⟩
        intro z hz
        rcases mem_insertSorted.mp hz with rfl | hz
        · apply Decidable.byContradiction
          intro hge
          exact hne (String.le_antisymm (String.not_lt.mp hge) (String.not_lt.mp hle))
        · exact hy z hz

theorem pairwise_foldl_insertSorted (new : List String) (h : xs.Pairwise (· < ·)) :
    (new.foldl (fun ls l => insertSorted l ls) xs).Pairwise (· < ·) := by
  induction new generalizing xs with
  | nil => exact h
  | cons l new ih => exact ih (pairwise_insertSorted h)

end Sorted

namespace Vocabulary

variable {m : String} {v : Vocabulary} {ds : List Declaration}

/-- Labels are added in the place of their metric, behind those that it has. -/
theorem addLabels_eq_put (metric : String) (new : List String)
    (labels : List (String × List String)) :
    addLabels metric new labels =
      Keyed.put metric (orderedUnion ((Keyed.get? metric labels).getD []) new) labels := by
  induction labels with
  | nil => simp [addLabels, Keyed.put, Keyed.get?, foldl_insertNew]
  | cons e rest ih =>
    obtain ⟨k, ls⟩ := e
    rw [addLabels, Keyed.put, Keyed.get?_cons]
    by_cases hk : k = metric
    · rw [if_pos hk, if_pos hk, if_pos hk.symm, Option.getD_some, foldl_insertNew, hk]
    · rw [if_neg hk, if_neg hk, if_neg (Ne.symm hk), ih]

/-- A declaration adds to the labels of its own metric only. -/
theorem labelsOf?_declare (v : Vocabulary) (d : Declaration) (m : String) :
    (v.declare d).labelsOf? m =
      match d.gives? m with
      | none => v.labelsOf? m
      | some new => some (orderedUnion ((v.labelsOf? m).getD []) new) := by
  obtain ⟨metric, labels?⟩ := d
  cases labels? with
  | none => simp [Vocabulary.declare, labelsOf?, Declaration.gives?]
  | some new =>
    change Keyed.get? m (addLabels metric new v.labels) = _
    rw [addLabels_eq_put]
    by_cases hm : metric = m
    · subst hm
      rw [Keyed.get?_put_self, Declaration.gives?, if_pos rfl]
      rfl
    · rw [Keyed.get?_put_of_ne (Ne.symm hm), Declaration.gives?, if_neg hm]
      rfl

theorem labelsOf?_foldl (v : Vocabulary) (ds : List Declaration) (m : String) :
    (ds.foldl declare v).labelsOf? m =
      if Declaration.given m ds = [] then v.labelsOf? m
      else some (orderedUnion ((v.labelsOf? m).getD []) (Declaration.given m ds).flatten) := by
  induction ds generalizing v with
  | nil => rfl
  | cons d ds ih =>
    rw [List.foldl_cons, ih, labelsOf?_declare]
    cases hgives : d.gives? m with
    | none =>
      have hgiven : Declaration.given m (d :: ds) = Declaration.given m ds :=
        List.filterMap_cons_none hgives
      rw [hgiven]
    | some new =>
      have hgiven : Declaration.given m (d :: ds) = new :: Declaration.given m ds :=
        List.filterMap_cons_some hgives
      rw [hgiven, if_neg (List.cons_ne_nil _ _), List.flatten_cons, orderedUnion_append]
      split
      · rename_i hnone
        rw [hnone, List.flatten_nil, orderedUnion_nil]
      · rfl

theorem metrics_foldl (v : Vocabulary) (ds : List Declaration) :
    (ds.foldl declare v).metrics = orderedUnion v.metrics (ds.map (·.metric)) := by
  rw [← foldl_insertNew, List.foldl_map]
  exact (List.foldl_hom Vocabulary.metrics fun _ _ => rfl).symm

theorem nodup_keys_declare (d : Declaration) (h : (v.labels.map (·.1)).Nodup) :
    ((v.declare d).labels.map (·.1)).Nodup := by
  obtain ⟨metric, labels?⟩ := d
  cases labels? with
  | none => exact h
  | some new =>
    change ((addLabels metric new v.labels).map (·.1)).Nodup
    rw [addLabels_eq_put]
    exact Keyed.nodup_keys_put h

theorem nodup_keys_foldl (ds : List Declaration) (h : (v.labels.map (·.1)).Nodup) :
    ((ds.foldl declare v).labels.map (·.1)).Nodup := by
  induction ds generalizing v with
  | nil => exact h
  | cons d ds ih => exact ih (nodup_keys_declare d h)

theorem builtin_eq : builtin = ⟨builtinNames, builtinMetrics⟩ := rfl

theorem labelsOf?_extended (ds : List Declaration) (m : String) :
    (extended ds).labelsOf? m =
      if Declaration.given m ds = [] then builtinLabels? m
      else some (orderedUnion ((builtinLabels? m).getD []) (Declaration.given m ds).flatten) :=
  labelsOf?_foldl builtin ds m

theorem nodup_keys_extended (ds : List Declaration) : ((extended ds).labels.map (·.1)).Nodup := by
  apply nodup_keys_foldl
  rw [builtin_eq]
  decide

theorem nodup_builtinLabels (m : String) : ((builtinLabels? m).getD []).Nodup := by
  have hall : ∀ e ∈ builtinMetrics, e.2.Nodup := by decide
  cases hlookup : builtinLabels? m with
  | none => exact List.nodup_nil
  | some ls =>
    obtain ⟨front, behind, heq, -⟩ := List.lookup_eq_some_iff.mp hlookup
    exact hall (m, ls) (by simp [heq])

theorem increasing_allLabels (v : Vocabulary) : v.allLabels.Pairwise (· < ·) :=
  pairwise_foldl_insertSorted _ .nil

theorem mem_allLabels_iff (hkeys : (v.labels.map (·.1)).Nodup) (l : String) :
    l ∈ v.allLabels ↔ ∃ m ls, v.labelsOf? m = some ls ∧ l ∈ ls := by
  unfold allLabels
  rw [mem_foldl_insert mem_insertSorted, List.mem_flatMap]
  constructor
  · rintro (⟨⟨m, ls⟩, hmem, hl⟩ | hnone)
    · exact ⟨m, ls, (Keyed.get?_eq_some_iff hkeys).mpr hmem, hl⟩
    · cases hnone
  · rintro ⟨m, ls, hlookup, hl⟩
    exact .inl ⟨(m, ls), (Keyed.get?_eq_some_iff hkeys).mp hlookup, hl⟩

theorem given_eq_nil_iff : Declaration.given m ds = [] ↔
    ∀ d ∈ ds, d.metric = m → d.labels? = none := by
  simp [Declaration.given, Declaration.gives?]

theorem unionLaw (ds : List Declaration) : UnionLaw ds where
  metrics_eq := metrics_foldl builtin ds
  metrics_nodup := by
    rw [extended, metrics_foldl]
    apply nodup_orderedUnion
    rw [builtin_eq]
    decide
  labelsOf?_eq_none := by
    intro m
    rw [labelsOf?_extended, ← given_eq_nil_iff]
    split
    · rename_i hnone
      exact (and_iff_left hnone).symm
    · rename_i hsome
      exact iff_of_false (Option.some_ne_none _) fun h => hsome h.2
  labelsOf?_eq := by
    intro m ls h
    rw [labelsOf?_extended] at h
    split at h
    · rename_i hnone
      rw [h, hnone, List.flatten_nil, orderedUnion_nil, Option.getD_some]
    · exact (Option.some.inj h).symm
  labelsOf?_nodup := by
    intro m ls h
    have hbuiltin := nodup_builtinLabels m
    rw [labelsOf?_extended] at h
    split at h
    · rwa [h] at hbuiltin
    · obtain rfl := Option.some.inj h
      exact nodup_orderedUnion hbuiltin
  allLabels_increasing := increasing_allLabels (extended ds)
  mem_allLabels := mem_allLabels_iff (nodup_keys_extended ds)

/-- What labels there are follows from those of each metric. -/
theorem allLabels_extended_congr {ds ds' : List Declaration}
    (h : ∀ m, (extended ds).labelsOf? m = (extended ds').labelsOf? m) :
    (extended ds).allLabels = (extended ds').allLabels := by
  apply (increasing_allLabels _).eq_of_mem_iff (increasing_allLabels _)
  intro l
  simp only [(unionLaw ds).mem_allLabels, (unionLaw ds').mem_allLabels, h]

end Vocabulary

namespace Settings

variable {s : Settings} {m : String} {ls : List String}

/-- Whatever the declarations of settings give to a metric is what is configured for it. -/
theorem mem_given_declarations (hkeys : (s.labels.map (·.1)).Nodup) :
    ls ∈ Declaration.given m s.declarations ↔ s.labels.lookup m = some ls := by
  unfold Declaration.given
  rw [List.mem_filterMap]
  constructor
  · rintro ⟨d, hd, hgives⟩
    obtain ⟨rfl, hlabels⟩ := Option.ite_none_right_eq_some.mp hgives
    rcases List.mem_append.mp hd with hd | hd
    · obtain ⟨metric, -, rfl⟩ := List.mem_map.mp hd
      exact hlabels
    · obtain ⟨e, he, rfl⟩ := List.mem_map.mp hd
      obtain rfl := Option.some.inj hlabels
      exact (Keyed.get?_eq_some_iff hkeys).mpr (List.mem_filter.mp he).1
  · intro hlookup
    by_cases hextra : m ∈ s.extraMetrics
    · refine ⟨⟨m, s.labels.lookup m⟩, ?_, ?_⟩
      · exact List.mem_append_left _ (List.mem_map.mpr ⟨m, hextra, rfl⟩)
      · rw [Declaration.gives?, if_pos rfl, hlookup]
    · refine ⟨⟨m, some ls⟩, ?_, if_pos rfl⟩
      apply List.mem_append_right
      refine List.mem_map.mpr ⟨(m, ls), List.mem_filter.mpr ⟨?_, ?_⟩, rfl⟩
      · exact (Keyed.get?_eq_some_iff hkeys).mp hlookup
      · exact decide_eq_true hextra

/-- The extra metrics have no part in the labels: they only repeat what is configured. -/
theorem labelsOf?_vocabulary (hkeys : (s.labels.map (·.1)).Nodup) (m : String) :
    s.vocabulary.labelsOf? m =
      match s.labels.lookup m with
      | none => Vocabulary.builtinLabels? m
      | some ls => some (orderedUnion ((Vocabulary.builtinLabels? m).getD []) ls) := by
  rw [vocabulary, Vocabulary.labelsOf?_extended]
  cases hlookup : s.labels.lookup m with
  | none =>
    have hnil : Declaration.given m s.declarations = [] := by
      apply List.eq_nil_iff_forall_not_mem.mpr
      intro ls hls
      rw [mem_given_declarations hkeys, hlookup] at hls
      cases hls
    rw [if_pos hnil]
  | some ls =>
    have hmem := (mem_given_declarations hkeys).mpr hlookup
    have hne : Declaration.given m s.declarations ≠ [] := List.ne_nil_of_mem hmem
    rw [if_neg hne, orderedUnion_flatten _ hne]
    intro ls' hls'
    rw [mem_given_declarations hkeys, hlookup] at hls'
    exact (Option.some.inj hls').symm

example :
    let s : Settings := { Settings.default with labels := [("up", ["cluster", "job"])] }
    s.vocabulary.labelsOf? "up" = some ["instance", "job", "cluster"] := by
  decide +kernel

theorem mem_metric_declarations :
    m ∈ s.declarations.map (·.metric) ↔ m ∈ s.extraMetrics ∨ m ∈ s.labels.map (·.1) := by
  have hextra : (s.extraMetrics.map fun m => (⟨m, s.labels.lookup m⟩ : Declaration)).map
      (·.metric) = s.extraMetrics := by
    simp [Function.comp_def]
  rw [declarations, List.map_append, List.mem_append, hextra]
  constructor
  · rintro (hm | hm)
    · exact .inl hm
    · obtain ⟨d, hd, rfl⟩ := List.mem_map.mp hm
      obtain ⟨e, he, rfl⟩ := List.mem_map.mp hd
      exact .inr (List.mem_map.mpr ⟨e, (List.mem_filter.mp he).1, rfl⟩)
  · rintro (hm | hm)
    · exact .inl hm
    · by_cases hlisted : m ∈ s.extraMetrics
      · exact .inl hlisted
      · obtain ⟨e, he, rfl⟩ := List.mem_map.mp hm
        have hkept : e ∈ s.labels.filter fun e => e.1 ∉ s.extraMetrics :=
          List.mem_filter.mpr ⟨he, decide_eq_true hlisted⟩
        exact .inr (List.mem_map.mpr ⟨_, List.mem_map.mpr ⟨e, hkept, rfl⟩, rfl⟩)

theorem labelsOf?_extra (hkeys : (s.labels.map (·.1)).Nodup) (extra : List String) (m : String) :
    { s with extraMetrics := extra }.vocabulary.labelsOf? m = s.vocabulary.labelsOf? m := by
  rw [labelsOf?_vocabulary hkeys, labelsOf?_vocabulary]
  exact hkeys

theorem unionLaw (hkeys : (s.labels.map (·.1)).Nodup) : s.UnionLaw where
  isMetric_iff := by
    intro m
    have hmetrics := (Vocabulary.unionLaw s.declarations).metrics_eq
    rw [Vocabulary.isMetric, decide_eq_true_eq, vocabulary, hmetrics, mem_orderedUnion,
      mem_metric_declarations]
  labelsOf?_eq_none := by
    intro m
    rw [labelsOf?_vocabulary hkeys]
    cases s.labels.lookup m with
    | none => simp
    | some ls => simp
  labelsOf?_eq := by
    intro m ls h
    rw [labelsOf?_vocabulary hkeys] at h
    split at h
    · rename_i hlookup
      rw [h, hlookup, Option.getD_none, orderedUnion_nil, Option.getD_some]
    · rename_i configured hlookup
      rw [hlookup, Option.getD_some]
      exact (Option.some.inj h).symm
  labelsOf?_extra := labelsOf?_extra hkeys
  allLabels_extra := by
    intro extra
    apply Vocabulary.allLabels_extended_congr
    exact labelsOf?_extra hkeys extra

end Settings

/-- Declarations unite what they declare with what is builtin, and so do settings. -/
theorem unionLaw_extended_and_vocabulary :
    (∀ ds, Vocabulary.UnionLaw ds) ∧
      ∀ s : Settings, (s.labels.map (·.1)).Nodup → s.UnionLaw :=
  ⟨Vocabulary.unionLaw, fun _ hkeys => Settings.unionLaw hkeys⟩

/-- An extra metric that is listed twice is declared twice, and a builtin one is given labels. -/
theorem unionLaw_extended_and_vocabulary_queueDepth :
    Settings.UnionLaw
      { Settings.default with
        extraMetrics := ["queue_depth", "queue_time", "queue_depth"]
        labels := [("queue_depth", ["queue"]), ("up", ["cluster", "job"])] } := by
  apply unionLaw_extended_and_vocabulary.2
  decide

end PromqlAssist
