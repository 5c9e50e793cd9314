import PromqlAssist.Proofs.Completion.Locality
import PromqlAssist.Proofs.Completion.Ranking
import PromqlAssist.Proofs.Server.Header
import PromqlAssist.Proofs.Server.Item
import PromqlAssist.Proofs.Vocabulary.Union

/-!
# The order that a client shows

A client orders items by their sort texts, byte by byte. A sort text is a rank of one digit and the
place in the ranked list in five digits: it increases with the place as long as five digits are
enough. A place of six digits makes a sort text that goes in front of those of the places before
it, so that longer lists are shown out of order. Settings may ask for such lists.
-/

namespace PromqlAssist

open Proposal

namespace Utf8

theorem encodeChar_of_lt {c : Char} (h : c.toNat < 128) :
    String.utf8EncodeChar c = [UInt8.ofNat c.toNat] :=
  if_pos (Nat.le_of_lt_succ h)

/-- Characters of one byte are ordered as their bytes are. -/
theorem encode_lt_encode {s t : Text} (hs : ∀ c ∈ s, c.toNat < 128) (ht : ∀ c ∈ t, c.toNat < 128)
    (h : s < t) : encode s < encode t := by
  induction s generalizing t with
  | nil =>
    cases t with
    | nil => exact absurd h (List.lt_irrefl [])
    | cons d t =>
      rw [encode, encode, List.flatMap_cons, encodeChar_of_lt (ht d List.mem_cons_self)]
      exact List.Lex.nil
  | cons c s ih =>
    cases t with
    | nil => exact absurd h (List.not_lt_nil _)
    | cons d t =>
      obtain ⟨hc, hs⟩ := List.forall_mem_cons.mp hs
      obtain ⟨hd, htail⟩ := List.forall_mem_cons.mp ht
      rw [encode, encode, List.flatMap_cons, List.flatMap_cons, encodeChar_of_lt hc,
        encodeChar_of_lt hd, List.singleton_append, List.singleton_append, List.cons_lt_cons_iff]
      rcases List.cons_lt_cons_iff.mp h with hlt | ⟨rfl, hlt⟩
      · have hlt : c.toNat < d.toNat := hlt
        rw [UInt8.lt_iff_toNat_lt, UInt8.toNat_ofNat', UInt8.toNat_ofNat']
        omega
      · exact .inr ⟨rfl, ih hs htail hlt⟩

end Utf8

namespace CompletionItem

/-- The bytes by which a client orders items. -/
def sortKey (i : CompletionItem) : Bytes :=
  Utf8.encode i.sortText

/-- An order of items in which no sort text is less than one in front of it. -/
structure Shows (items shown : List CompletionItem) : Prop where
  perm : shown.Perm items
  sorted : shown.Pairwise fun i j => i.sortKey ≤ j.sortKey

/-- Items are shown in their own order exactly if five digits are enough to number them. -/
structure SortLaw (items : List CompletionItem) : Prop where
  increasing_iff : items.Pairwise (fun i j => i.sortKey < j.sortKey) ↔ items.length ≤ 10 ^ 5
  shows_iff : (∀ shown, Shows items shown → shown = items) ↔ items.length ≤ 10 ^ 5

variable {items shown : List CompletionItem} {ps : List Proposal} {c d : Category} {m n : Nat}

/-! ## Sort texts -/

theorem isDigit_of_mem_sortTextOf {x : Char} (h : x ∈ sortTextOf c n) : x.isDigit :=
  (List.mem_append.mp h).elim Decimal.isDigit_of_mem_render Decimal.isDigit_of_mem_renderPadded

theorem sortTextOf_lt (hrank : c.rank ≤ d.rank) (hmn : m < n) (hn : n < 10 ^ 5) :
    sortTextOf c m < sortTextOf d n := by
  unfold sortTextOf
  obtain hlt | heq := Nat.lt_or_eq_of_le hrank
  · have hd := d.rank_le_one
    have hzero : c.rank = 0 := by omega
    have hone : d.rank = 1 := by omega
    rw [hzero, hone]
    exact List.Lex.rel (by decide)
  · rw [heq]
    exact List.append_left_lt (Decimal.renderPadded_lt hmn hn)

/-- A sixth digit takes a place in front of the highest places of five digits. -/
theorem sortTextOf_overflow (hc : c.rank = 1) (hd : d.rank = 1) :
    sortTextOf d (10 ^ 5) < sortTextOf c (10 ^ 5 - 1) := by
  rw [sortTextOf, sortTextOf, hc, hd]
  decide +kernel

theorem sortKey_lt {text : Text} {p q : Proposal}
    (h : sortTextOf p.category m < sortTextOf q.category n) :
    (ofProposal text m p).sortKey < (ofProposal text n q).sortKey := by
  have hascii : ∀ category index, ∀ x ∈ sortTextOf category index, x.toNat < 128 := by
    intro category index x hx
    have hdigit := Decimal.isDigit_iff.mp (isDigit_of_mem_sortTextOf hx)
    omega
  exact Utf8.encode_lt_encode (hascii _ m) (hascii _ n) h

/-! ## Lists of items -/

theorem increasing_ofProposals (text : Text) (h : TemplatesFirst ps) (hle : ps.length ≤ 10 ^ 5) :
    (ofProposals text ps).Pairwise fun i j => i.sortKey < j.sortKey := by
  rw [List.pairwise_iff_getElem]
  intro i j hi hj hij
  rw [ofProposals, List.length_mapIdx] at hi hj
  simp only [ofProposals, List.getElem_mapIdx]
  apply sortKey_lt
  exact sortTextOf_lt (List.pairwise_iff_getElem.mp h.ordered i j hi hj hij) hij (by omega)

theorem not_sorted_ofProposals (text : Text) (h : TemplatesFirst ps) (hlt : 10 ^ 5 < ps.length) :
    ¬ (ofProposals text ps).Pairwise fun i j => i.sortKey ≤ j.sortKey := by
  intro hsorted
  -- There are so few templates that the last place of five digits and the next one have rank one.
  have hfew : Template.builtin.length ≤ 10 ^ 5 - 1 := by decide
  have hlength : (ofProposals text ps).length = ps.length := List.length_mapIdx
  have hle := List.pairwise_iff_getElem.mp hsorted (10 ^ 5 - 1) (10 ^ 5) (by omega) (by omega)
    (by decide)
  simp only [ofProposals, List.getElem_mapIdx] at hle
  refine hle (sortKey_lt (sortTextOf_overflow ?_ ?_))
  · exact h.rank_eq_one _ hfew
  · exact h.rank_eq_one _ (by omega)

/-- Sort texts that all differ leave no choice between two orders. -/
theorem Shows.eq_of_increasing (h : items.Pairwise fun i j => i.sortKey < j.sortKey)
    (hshows : Shows items shown) : shown = items := by
  refine hshows.perm.eq_of_pairwise ?_ hshows.sorted (h.imp List.le_of_lt)
  intro i j hi hj hij hji
  have hnodup : (items.map sortKey).Nodup := by
    rw [List.Nodup, List.pairwise_map]
    refine h.imp fun hlt heq => ?_
    rw [heq] at hlt
    exact List.lt_irrefl _ hlt
  exact List.inj_on_of_nodup_map hnodup (hshows.perm.mem_iff.mp hi) hj (List.le_antisymm hij hji)

theorem exists_shows (items : List CompletionItem) : ∃ shown, Shows items shown := by
  let le (i j : CompletionItem) : Bool := i.sortKey ≤ j.sortKey
  have hsorted : (items.mergeSort le).Pairwise fun i j => le i j = true := by
    apply List.pairwise_mergeSort
    · intro i j k hij hjk
      exact decide_eq_true (List.le_trans (of_decide_eq_true hij) (of_decide_eq_true hjk))
    · intro i j
      rw [Bool.or_eq_true, decide_eq_true_eq, decide_eq_true_eq]
      exact List.le_total _ _
  exact ⟨items.mergeSort le, List.mergeSort_perm _ _, hsorted.imp of_decide_eq_true⟩

theorem sortLaw_ofProposals (text : Text) (h : TemplatesFirst ps) :
    SortLaw (ofProposals text ps) := by
  have hlength : (ofProposals text ps).length = ps.length := List.length_mapIdx
  have hle_of_sorted :
      ((ofProposals text ps).Pairwise fun i j => i.sortKey ≤ j.sortKey) → ps.length ≤ 10 ^ 5 := by
    intro hsorted
    exact Nat.le_of_not_lt fun hlt => not_sorted_ofProposals text h hlt hsorted
  refine ⟨?_, ?_⟩ <;> rw [hlength]
  · refine ⟨fun hincreasing => ?_, increasing_ofProposals text h⟩
    exact hle_of_sorted (hincreasing.imp List.le_of_lt)
  · constructor
    · intro hall
      obtain ⟨shown, hshows⟩ := exists_shows (ofProposals text ps)
      obtain rfl := hall shown hshows
      exact hle_of_sorted hshows.sorted
    · intro hle shown hshows
      exact hshows.eq_of_increasing (increasing_ofProposals text h hle)

end CompletionItem

/-! ## Settings that ask for long lists -/

namespace Settings

def numberedMetric (i : Nat) : String :=
  String.ofList ('m' :: Decimal.render i)

/-- Settings with as many metrics of their own as they ask for proposals. -/
def numbered (n : Nat) : Settings :=
  { Settings.default with limit := n, extraMetrics := (List.range n).map numberedMetric }

theorem isMetricName_numberedMetric (i : Nat) : isMetricName (numberedMetric i) := by
  rw [isMetricName, numberedMetric, String.toList_ofList]
  refine Bool.and_eq_true_iff.mpr ⟨by decide, List.all_eq_true.mpr fun c hc => ?_⟩
  rw [Decimal.isDigit_of_mem_render hc, Bool.or_true]

theorem numberedMetric_injective : Function.Injective numberedMetric := by
  intro i j h
  exact Decimal.render_injective (List.cons.inj (String.ofList_inj.mp h)).2

theorem fault?_numbered {n : Nat} (h : 0 < n) : (numbered n).fault? = none := by
  have hlimit : ¬ (numbered n).limit = 0 := Nat.ne_of_gt h
  have hnames : (numbered n).extraMetrics.find? (fun m => !isMetricName m) = none := by
    rw [List.find?_eq_none]
    intro m hm
    obtain ⟨i, -, rfl⟩ := List.mem_map.mp hm
    simp [isMetricName_numberedMetric]
  have hlabels : (numbered n).labels = [] := rfl
  have hfilter : (numbered n).logFilter.isAllBlank = false :=
    (by decide : Settings.default.logFilter.isAllBlank = false)
  rw [fault?, if_neg hlimit]
  simp [hlabels, hnames, hfilter]

theorem le_length_metrics_numbered (n : Nat) : n ≤ (numbered n).vocabulary.metrics.length := by
  have hnodup : (numbered n).extraMetrics.Nodup := List.nodup_range.map numberedMetric_injective
  have hsubset : (numbered n).extraMetrics ⊆ (numbered n).vocabulary.metrics := by
    intro m hm
    rw [vocabulary, (Vocabulary.unionLaw _).metrics_eq, mem_orderedUnion, mem_metric_declarations]
    exact .inr (.inl hm)
  simpa [numbered] using (List.subperm_of_subset hnodup hsubset).length_le

end Settings

/-- For an empty text all metrics are proposed, up to the limit. -/
theorem length_complete_empty {vocabulary : Vocabulary} {limit : Nat}
    (h : limit ≤ vocabulary.metrics.length) : (complete vocabulary limit [] 0).length = limit := by
  have hnone : Placeholder.find? [] 0 = none :=
    Placeholder.find?_eq_none fun c hc => absurd hc (Option.not_mem_none c)
  have hall : Completion.ofContext vocabulary [] 0 =
      suggest vocabulary (.functionOrMetric .start) ⟨0, 0⟩ := by
    -- An expression starts here, and nothing is typed that could filter.
    refine List.filter_eq_self.mpr fun p _ => ?_
    exact Text.hasInfix_iff.mpr List.nil_infix
  have hle : limit ≤ (suggest vocabulary (.functionOrMetric .start) ⟨0, 0⟩).length := by
    rw [suggest, (ranked_perm _).length_eq, Suggestion.candidates, List.length_append,
      Suggestion.metrics, List.length_map]
    omega
  have hcomplete : Placeholder.complete? vocabulary [] 0 = none := by
    rw [Placeholder.complete?, hnone, Option.bind_none]
  have hclamp : Text.clamp [] 0 = 0 := rfl
  rw [complete, hclamp, hcomplete, Option.getD_none, hall, List.length_take]
  omega

namespace Backend

variable {b : Backend} {uri : String} {position : Position} {items : List CompletionItem}

theorem exists_of_completions (h : b.completions uri position = some items) :
    ∃ document, b.documents.document? uri = some document ∧
      items = CompletionItem.ofProposals document.text (complete b.vocabulary b.options.limit
        document.text (document.text.offsetOf position)) := by
  obtain ⟨document, hdocument, hitems⟩ := Option.bind_eq_some_iff.mp h
  split at hitems
  · cases hitems
  · exact ⟨document, hdocument, (Option.some.inj hitems).symm⟩

/-- A server that is started with numbered metrics and is shown an empty text. -/
def numbered (n : Nat) : Backend :=
  (start (Settings.numbered n).vocabulary (Settings.numbered n).options).openDocument 0
    "file:///q.promql" 1 []

theorem completions_numbered {n : Nat} (h : 0 < n) :
    ∃ ps, TemplatesFirst ps ∧ ps.length = n ∧
      (numbered n).completions "file:///q.promql" ⟨0, 0⟩ =
        some (CompletionItem.ofProposals [] ps) := by
  have hlength := length_complete_empty (Settings.le_length_metrics_numbered n)
  have hne : complete (Settings.numbered n).vocabulary n [] 0 ≠ [] :=
    List.ne_nil_of_length_pos (Nat.lt_of_lt_of_eq h hlength.symm)
  refine ⟨_, templatesFirst_complete (Settings.numbered n).vocabulary n [] 0, hlength, ?_⟩
  rw [completions, numbered, document?_openDocument, Option.bind_some]
  split
  · rename_i hnil
    exact absurd hnil hne
  · rfl

/-- A client shows an answer in the order of the ranked list exactly if it holds no more than a
hundred thousand items. -/
theorem sortLaw_completions (b : Backend) (h : b.completions uri position = some items) :
    CompletionItem.SortLaw items := by
  obtain ⟨document, -, rfl⟩ := exists_of_completions h
  exact CompletionItem.sortLaw_ofProposals _ (templatesFirst_complete _ _ _ _)

/-- The longest list that is shown in its own order. -/
theorem sortLaw_completions_longest :
    ∃ items, (numbered (10 ^ 5)).completions "file:///q.promql" ⟨0, 0⟩ = some items ∧
      items.length = 10 ^ 5 ∧ CompletionItem.SortLaw items ∧
        items.Pairwise fun i j => i.sortKey < j.sortKey := by
  obtain ⟨ps, -, hlength, hitems⟩ := completions_numbered (n := 10 ^ 5) (by decide)
  have hcount : (CompletionItem.ofProposals [] ps).length = 10 ^ 5 :=
    List.length_mapIdx.trans hlength
  have hlaw := sortLaw_completions _ hitems
  exact ⟨_, hitems, hcount, hlaw, hlaw.increasing_iff.mpr (Nat.le_of_eq hcount)⟩

/-- With one item more, for which settings without a fault may ask, the last item goes in front of
the one before it. -/
theorem not_increasing_completions :
    (Settings.numbered (10 ^ 5 + 1)).fault? = none ∧
      ∃ items, (numbered (10 ^ 5 + 1)).completions "file:///q.promql" ⟨0, 0⟩ = some items ∧
        ¬ items.Pairwise fun i j => i.sortKey < j.sortKey := by
  obtain ⟨ps, hfirst, hlength, hitems⟩ := completions_numbered (n := 10 ^ 5 + 1) (by decide)
  have hlt : 10 ^ 5 < ps.length := Nat.lt_of_lt_of_eq (Nat.lt_succ_self _) hlength.symm
  refine ⟨Settings.fault?_numbered (by decide), _, hitems, fun hincreasing => ?_⟩
  exact CompletionItem.not_sorted_ofProposals [] hfirst hlt (hincreasing.imp List.le_of_lt)

end Backend

end PromqlAssist
