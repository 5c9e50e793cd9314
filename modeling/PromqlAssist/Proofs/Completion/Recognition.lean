import Mathlib.Data.List.Nodup
import PromqlAssist.Proofs.Completion.Placement
import PromqlAssist.Proofs.Template.Filled
import PromqlAssist.Proofs.Text.Position
import PromqlAssist.Proofs.Vocabulary.Identifiers
import PromqlAssist.Session.Workbench

/-!
# Filled-in templates are recognised

On a line that a template makes with values, the cursor on a value is on the placeholder of this
value: templates that come earlier have no match in the line, the template matches it as a whole,
and no other value touches the cursor. What is offered for the placeholder is a value again, so the
line stays one that the template makes.
-/

namespace PromqlAssist

open Text Template PatternPart Snippet

/-- A line that a template on offer makes with values, between other lines. -/
structure FilledLine where
  template : Template
  value : Text → Text
  front : Text
  behind : Text
  mem_builtin : template ∈ builtin
  isValue : ∀ p ∈ template.parameters, IsValue (value p.name.toList)
  front_ends : ∀ c ∈ front.getLast?, c = '\n'
  behind_starts : ∀ c ∈ behind.head?, c = '\n'

namespace FilledLine

variable (l : FilledLine)

/-- The line with what is around it. -/
def text : Text :=
  l.front ++ (l.template.fill l.value ++ l.behind)

/-- Whether the value of a name stands in a span of the text. -/
def HasValueAt (name : Text) (span : Span) : Prop :=
  ∃ segs index later, l.template.segments = segs ++ .placeholder index name :: later ∧
    span = ⟨size l.front + size (segs.flatMap (filled l.value)),
      size l.front + size (segs.flatMap (filled l.value)) + size (l.value name)⟩

/-- What the template captures in the line. -/
def captures : List Capture :=
  capturesFrom l.value (size l.front) l.template.segments

theorem isValue_of_mem_names : ∀ name ∈ names l.template.segments, IsValue (l.value name) := by
  rw [(recognisable_of_mem l.mem_builtin).names_eq]
  intro name hname
  obtain ⟨p, hp, rfl⟩ := List.mem_map.mp hname
  exact l.isValue p hp

theorem reads : Reads l.template.pattern (size l.front) (l.template.fill l.value) l.captures := by
  rw [fill_eq]
  exact reads_filled (recognisable_of_mem l.mem_builtin).separated l.isValue_of_mem_names

theorem lineFeed_not_mem : '\n' ∉ l.template.fill l.value := by
  intro hmem
  rw [fill_eq] at hmem
  rcases mem_filled hmem with hmem | ⟨name, hname, hmem⟩
  · exact (recognisable_of_mem l.mem_builtin).oneLine hmem
  · have hblank := isBlank_of_isValueChar ((l.isValue_of_mem_names name hname).isValueChar_of_mem _ hmem)
    cases hblank

/-- Templates in front of the line's have no match in it. -/
theorem matchesFrom_earlier {earlier later : List Template} {t : Template}
    (hbuiltin : builtin = earlier ++ l.template :: later) (ht : t ∈ earlier) (n : Nat) :
    matchesFrom t.pattern n 0 (l.template.fill l.value) = [] := by
  have hapart := apart_builtin
  rw [hbuiltin, List.map_append, List.map_cons, List.pairwise_append] at hapart
  have ht' := hapart.2.2 _ (List.mem_map.mpr ⟨t, ht, rfl⟩) _ List.mem_cons_self
  exact ht'.matchesFrom_eq_nil l.reads.spells n 0

end FilledLine

namespace Placeholder

variable {t : Template} {captures : List Capture} {capture : Capture} {p : Parameter}
variable {cursor : Nat}

/-- A cursor touches one of several values that are apart from each other. -/
theorem eq_of_touches {c d : Capture}
    (hapart : captures.Pairwise fun a b => a.span.stop < b.span.start) (hc : c ∈ captures)
    (hd : d ∈ captures) (hcursor : c.span.touches cursor) (hcursor' : d.span.touches cursor) :
    c = d := by
  simp only [Span.touches, Bool.and_eq_true, decide_eq_true_eq] at hcursor hcursor'
  induction captures with
  | nil => cases hc
  | cons a captures ih =>
    obtain ⟨hfirst, hapart⟩ := List.pairwise_cons.mp hapart
    rcases List.mem_cons.mp hc with rfl | hc'
    · rcases List.mem_cons.mp hd with rfl | hd'
      · rfl
      · have hlt := hfirst d hd'
        omega
    · rcases List.mem_cons.mp hd with rfl | hd'
      · have hlt := hfirst c hc'
        omega
      · exact ih hapart hc' hd'

/-- The touched value decides on the parameter. -/
theorem ofCaptures?_eq_some
    (hnames : captures.map (·.name) = t.parameters.map fun p => p.name.toList)
    (hnodup : (captures.map (·.name)).Nodup)
    (hapart : captures.Pairwise fun a b => a.span.stop < b.span.start) (hp : p ∈ t.parameters)
    (hcapture : capture ∈ captures) (hname : capture.name = p.name.toList)
    (hcursor : capture.span.touches cursor) :
    ofCaptures? t captures cursor = some ⟨t, p, capture.span⟩ := by
  have hfind : (captures.find? fun c => c.name = p.name.toList) = some capture := by
    cases hfound : captures.find? fun c => c.name = p.name.toList with
    | none => exact absurd hname (by simpa using List.find?_eq_none.mp hfound capture hcapture)
    | some c =>
      have hc : c.name = p.name.toList := by simpa using List.find?_some hfound
      rw [List.inj_on_of_nodup_map hnodup (List.mem_of_find?_eq_some hfound) hcapture
        (hc.trans hname.symm)]
  cases hfound : ofCaptures? t captures cursor with
  | none =>
    have hnone := List.findSome?_eq_none_iff.mp hfound p hp
    simp [hfind, hcursor] at hnone
  | some found =>
    obtain ⟨p', hp', h⟩ := List.exists_of_findSome?_eq_some hfound
    obtain ⟨c, hc, h⟩ := Option.bind_eq_some_iff.mp h
    split at h
    · rename_i htouches
      obtain rfl := Option.some.inj h
      obtain rfl := eq_of_touches hapart (List.mem_of_find?_eq_some hc) hcapture htouches hcursor
      have hname' : c.name = p'.name.toList := by simpa using List.find?_some hc
      rw [hnames] at hnodup
      rw [List.inj_on_of_nodup_map hnodup hp' hp (hname'.symm.trans hname)]
    · cases h

end Placeholder

namespace FilledLine

variable (l : FilledLine) {p : Parameter} {span : Span} {cursor : Nat} {name new : Text}

theorem lineBounds_text (hlow : size l.front ≤ cursor)
    (hhigh : cursor ≤ size l.front + size (l.template.fill l.value)) :
    l.text.lineBounds cursor = ⟨size l.front, size l.front + size (l.template.fill l.value)⟩ :=
  lineBounds_append l.front_ends l.lineFeed_not_mem l.behind_starts hlow hhigh

/-- The value of a parameter stands somewhere. -/
theorem exists_hasValueAt (hp : p ∈ l.template.parameters) :
    ∃ span, l.HasValueAt p.name.toList span := by
  have hmem : p.name.toList ∈ names l.template.segments := by
    rw [(recognisable_of_mem l.mem_builtin).names_eq]
    exact List.mem_map.mpr ⟨p, hp, rfl⟩
  obtain ⟨segs, index, later, hsegs⟩ := exists_append_of_mem_names hmem
  exact ⟨_, segs, index, later, hsegs, rfl⟩

variable {l}

/-- Where a value stands, it is captured, and it stands in the line. -/
theorem HasValueAt.captured (h : l.HasValueAt name span) : ⟨name, span⟩ ∈ l.captures := by
  obtain ⟨segs, index, later, hsegs, rfl⟩ := h
  rw [captures, hsegs, capturesFrom_append]
  exact List.mem_append_right _ List.mem_cons_self

theorem HasValueAt.in_line (h : l.HasValueAt name span) (hcursor : span.touches cursor) :
    size l.front ≤ cursor ∧ cursor ≤ size l.front + size (l.template.fill l.value) := by
  obtain ⟨segs, index, later, hsegs, rfl⟩ := h
  simp only [Span.touches, Bool.and_eq_true, decide_eq_true_eq] at hcursor
  rw [fill_eq, hsegs, List.flatMap_append, List.flatMap_cons, filled]
  simp only [size_append]
  omega

/-- The cursor on a value is on the placeholder of the value. -/
theorem HasValueAt.find?_eq (h : l.HasValueAt p.name.toList span)
    (hp : p ∈ l.template.parameters) (hcursor : span.touches cursor) :
    Placeholder.find? l.text cursor = some ⟨l.template, p, span⟩ := by
  obtain ⟨hlow, hhigh⟩ := h.in_line hcursor
  have hrecognisable := recognisable_of_mem l.mem_builtin
  have hnames := map_name_capturesFrom l.value (size l.front) l.template.segments
  obtain ⟨earlier, later, hbuiltin⟩ := List.append_of_mem l.mem_builtin
  obtain ⟨others, hmatches⟩ := matchesFrom_of_matchAt? l.reads.matchAt?
  have hcaptures : Placeholder.ofCaptures? l.template l.captures cursor =
      some ⟨l.template, p, span⟩ :=
    Placeholder.ofCaptures?_eq_some (hnames.trans hrecognisable.names_eq)
      (hnames ▸ hrecognisable.nodup) (pairwise_capturesFrom hrecognisable.separated _ _) hp
      h.captured rfl hcursor
  have hslice : (⟨size l.front, size l.front + size (l.template.fill l.value)⟩ : Span).slice l.text =
      l.template.fill l.value := slice_append l.front _ l.behind
  unfold Placeholder.find?
  simp only [l.lineBounds_text hlow hhigh, hslice]
  have hearlier : (earlier.findSome? fun t =>
      (matchesFrom t.pattern (size l.front) 0 (l.template.fill l.value)).findSome? fun captures =>
        Placeholder.ofCaptures? t captures cursor) = none := by
    apply List.findSome?_eq_none_iff.mpr
    intro t ht
    rw [l.matchesFrom_earlier hbuiltin ht]
    rfl
  rw [hbuiltin, List.findSome?_append, hearlier, Option.none_or, List.findSome?_cons, hmatches,
    List.findSome?_cons, hcaptures]

/-! ## Other values -/

/-- The line with another value for a name. -/
def withValue (l : FilledLine) (name new : Text) (hnew : IsValue new) : FilledLine :=
  { l with
    value := Template.withValue l.value name new
    isValue := by
      intro p hp
      unfold Template.withValue
      split
      · exact hnew
      · exact l.isValue p hp }

/-- A value is a part of the text that can be another one. -/
theorem HasValueAt.exists_append (h : l.HasValueAt name span) :
    ∃ a b : Text, l.text = a ++ (l.value name ++ b) ∧
      span = ⟨size a, size a + size (l.value name)⟩ ∧
      ∀ new (hnew : IsValue new), (l.withValue name new hnew).text = a ++ (new ++ b) ∧
        (l.withValue name new hnew).HasValueAt name ⟨size a, size a + size new⟩ := by
  obtain ⟨segs, index, later, hsegs, rfl⟩ := h
  have hnodup := (recognisable_of_mem l.mem_builtin).nodup
  rw [hsegs, names_append, List.nodup_append] at hnodup
  have hsegsNot : name ∉ names segs := by
    intro hmem
    exact hnodup.2.2 name hmem name List.mem_cons_self rfl
  have hlaterNot : name ∉ names later := (List.nodup_cons.mp hnodup.2.1).1
  have htext : ∀ l' : FilledLine, l'.template = l.template → l'.text = l'.front ++
      segs.flatMap (filled l'.value) ++ (l'.value name ++
        (later.flatMap (filled l'.value) ++ l'.behind)) := by
    intro l' htemplate
    rw [text, fill_eq, htemplate, hsegs, List.flatMap_append, List.flatMap_cons, filled]
    simp only [List.append_assoc]
  refine ⟨l.front ++ segs.flatMap (filled l.value), later.flatMap (filled l.value) ++ l.behind,
    htext l rfl, by rw [size_append], ?_⟩
  intro new hnew
  have hvalue : (l.withValue name new hnew).value name = new := if_pos rfl
  have hkeeps : ∀ {segs : List Segment}, name ∉ names segs →
      segs.flatMap (filled (l.withValue name new hnew).value) = segs.flatMap (filled l.value) :=
    fun hnot => filled_withValue hnot l.value new
  constructor
  · rw [htext (l.withValue name new hnew) rfl, hvalue, hkeeps hsegsNot, hkeeps hlaterNot]
    rfl
  · refine ⟨segs, index, later, hsegs, ?_⟩
    rw [hvalue, hkeeps hsegsNot, size_append]
    rfl

end FilledLine

/-! ## What is offered for a placeholder -/

/-- A proposal that inserts its own label, which is a value. -/
structure Proposal.InsertsValue (q : Proposal) : Prop where
  plainText_eq : q.plainText = q.label.toList
  isValue : IsValue q.label.toList

namespace Placeholder

variable {v : Vocabulary} {found : Placeholder} {q : Proposal} {span : Span} {xs : List String}

theorem isValue_of_isMetricName {name : String} (h : Settings.isMetricName name) :
    IsValue name.toList := by
  obtain ⟨hne, hchars⟩ := Settings.isIdent_of_isMetricName h
  refine ⟨hne, ?_⟩
  intro c hc
  exact isValueChar_of_isIdent (hchars c hc)

theorem insertsValue_of_mem_map {f : String → Proposal} (hlabel : ∀ x, (f x).label = x)
    (hplain : ∀ x, (f x).plainText = x.toList) (hxs : ∀ x ∈ xs, IsValue x.toList)
    (h : q ∈ xs.map f) : q.InsertsValue := by
  obtain ⟨x, hx, rfl⟩ := List.mem_map.mp h
  constructor
  · rw [hplain, hlabel]
  · rw [hlabel]
    exact hxs x hx

theorem insertsValue_of_mem_durations (h : q ∈ Suggestion.durations span) : q.InsertsValue := by
  refine insertsValue_of_mem_map ?_ ?_ ?_ h
  · intro x
    dsimp only
    split <;> rfl
  · intro x
    dsimp only
    split <;> rfl
  · decide +kernel

theorem insertsValue_of_mem_metrics (hxs : ∀ x ∈ xs, Settings.isMetricName x)
    (h : q ∈ Suggestion.metrics xs span) : q.InsertsValue :=
  insertsValue_of_mem_map (fun _ => rfl) (fun _ => rfl)
    (fun x hx => isValue_of_isMetricName (hxs x hx)) h

theorem insertsValue_of_mem_labels (hxs : ∀ x ∈ xs, Settings.isLabelName x)
    (h : q ∈ Suggestion.labels xs span) : q.InsertsValue :=
  insertsValue_of_mem_map (fun _ => rfl) (fun _ => rfl)
    (fun x hx => isValue_of_isMetricName (Settings.isMetricName_of_isLabelName (hxs x hx))) h

theorem insertsValue_of_mem_values (hxs : ∀ x ∈ xs, IsValue x.toList) (h : q ∈ values xs span) :
    q.InsertsValue :=
  insertsValue_of_mem_map (fun _ => rfl) (fun _ => rfl) hxs h

theorem label_of_mem_labelsFor (hv : v.HasIdentifiers) (t : Template) :
    ∀ x ∈ labelsFor v t, Settings.isLabelName x := by
  intro x hx
  unfold labelsFor at hx
  cases hlabels : (t.parameters.find? fun p => p.kind = .metric).bind fun p =>
      v.labelsOf? p.default with
  | none =>
    rw [hlabels] at hx
    exact hv.label_of_mem_allLabels hx
  | some labels =>
    rw [hlabels] at hx
    obtain ⟨p, -, hfound⟩ := Option.bind_eq_some_iff.mp hlabels
    exact hv.label_of_labelsOf? hfound hx

theorem metric_of_mem_metricFamily (hv : v.HasIdentifiers) (default : String) :
    ∀ x ∈ metricFamily v default, Settings.isMetricName x := by
  intro x hx
  unfold metricFamily at hx
  dsimp only at hx
  split at hx
  · exact hv.metric x hx
  · exact hv.metric x (List.mem_filter.mp hx).1

/-- With a vocabulary of identifiers, values are offered for every placeholder. -/
theorem insertsValue_of_mem_candidates (hv : v.HasIdentifiers) (h : q ∈ candidates v found) :
    q.InsertsValue := by
  have hmetrics : ∀ {P : String → Bool}, q ∈ Suggestion.metrics (v.metrics.filter P) found.span →
      q.InsertsValue :=
    insertsValue_of_mem_metrics fun x hx => hv.metric x (List.mem_filter.mp hx).1
  unfold candidates at h
  split at h
  · exact hmetrics h
  split at h
  · exact insertsValue_of_mem_values (by decide +kernel) h
  split at h
  · exact hmetrics h
  split at h
  · exact hmetrics h
  unfold ofKind at h
  split at h
  · exact insertsValue_of_mem_durations h
  · exact insertsValue_of_mem_metrics (metric_of_mem_metricFamily hv _) h
  · exact insertsValue_of_mem_labels (label_of_mem_labelsFor hv _) h
  · exact insertsValue_of_mem_values (by decide +kernel) h
  · cases h

theorem of_mem_proposals (hv : v.HasIdentifiers) (h : q ∈ found.proposals v) :
    q.InsertsValue ∧ q.span = found.span := by
  obtain ⟨c, hc, rfl⟩ := List.mem_map.mp h
  obtain ⟨hplain, hvalue⟩ := insertsValue_of_mem_candidates hv hc
  exact ⟨⟨hplain, hvalue⟩, span_of_mem_candidates (p := c) hc⟩

end Placeholder

/-- On a line that a template makes with values, the cursor on a value is on the placeholder of this
value. Any proposal for it makes the same line with the proposal's label for the value, and the
cursor is on the same placeholder behind it. -/
theorem FilledLine.recognised (l : FilledLine) {p : Parameter} (hp : p ∈ l.template.parameters) :
    (∃ span, l.HasValueAt p.name.toList span) ∧
      ∀ span cursor, l.HasValueAt p.name.toList span → span.touches cursor →
        Placeholder.find? l.text cursor = some ⟨l.template, p, span⟩ ∧
        ∀ (v : Vocabulary) ps, v.HasIdentifiers → Placeholder.complete? v l.text cursor = some ps →
          ∀ q ∈ ps, ∀ e : Editor, e.text = l.text →
            (e.replace q.span q.plainText).text = l.front ++ (l.template.fill
              (Template.withValue l.value p.name.toList q.label.toList) ++ l.behind) ∧
            ∃ span', Placeholder.find? (e.replace q.span q.plainText).text
              (e.replace q.span q.plainText).cursor = some ⟨l.template, p, span'⟩ := by
  constructor
  · exact l.exists_hasValueAt hp
  intro span cursor hspan hcursor
  have hfind := hspan.find?_eq hp hcursor
  refine ⟨hfind, ?_⟩
  intro v ps hv hps q hq e he
  obtain ⟨found, hfound, hps⟩ := Option.bind_eq_some_iff.mp hps
  rw [hfind] at hfound
  obtain rfl := Option.some.inj hfound
  dsimp only at hps
  split at hps
  · cases hps
  obtain rfl := Option.some.inj hps
  obtain ⟨⟨hplain, hvalue⟩, hqspan⟩ := Placeholder.of_mem_proposals hv hq
  obtain ⟨a, b, htext, hcut, hother⟩ := hspan.exists_append
  obtain ⟨htext', hspan'⟩ := hother q.label.toList hvalue
  have hqcut : q.span = ⟨size a, size a + size (l.value p.name.toList)⟩ := hqspan.trans hcut
  have hreplaced : (e.replace q.span q.plainText).text =
      (l.withValue p.name.toList q.label.toList hvalue).text := by
    show q.span.replace e.text q.plainText = _
    rw [hqcut, he, htext, Span.replace_append, hplain, htext']
  have hbehind : (e.replace q.span q.plainText).cursor = size a + size q.label.toList := by
    show q.span.start + size q.plainText = _
    rw [hqcut, hplain]
  refine ⟨hreplaced, ⟨size a, size a + size q.label.toList⟩, ?_⟩
  rw [hreplaced, hbehind]
  exact hspan'.find?_eq hp (by simp [Span.touches])

/-- A share of memory between two metrics that are none, with lines around it. -/
def memoryLine : FilledLine where
  template := builtin[4]
  value := fun name => if name = "available".toList then "a-b/c".toList else "é=~".toList
  front := ['é', '\n']
  behind := ['\n', 'u', 'p']
  mem_builtin := List.getElem_mem _
  isValue := by
    intro p _
    split <;> decide +kernel
  front_ends := fun _ hc => (Option.some.inj hc).symm
  behind_starts := fun _ hc => (Option.some.inj hc).symm

def availableMemory : Parameter :=
  ⟨"available", .metric, "node_memory_MemAvailable_bytes", false⟩

/-- The one proposal for the first metric. -/
def freeMemory : Proposal :=
  ((Proposal.plain "my_memory:free" .metric ⟨8, 13⟩).withDetail "metric").withDocumentation
    "metric for `memory_usage.available`"

theorem recognised_memoryLine :
    memoryLine.text = "é\n(1 - a-b/c / é=~) * 100\nup".toList ∧
      Placeholder.find? memoryLine.text 10 = some ⟨builtin[4], availableMemory, ⟨8, 13⟩⟩ ∧
      Placeholder.complete? ⟨["my_memory:free"], []⟩ memoryLine.text 10 = some [freeMemory] ∧
      freeMemory.span.replace memoryLine.text freeMemory.plainText =
        "é\n(1 - my_memory:free / é=~) * 100\nup".toList ∧
      ∃ span, Placeholder.find? (freeMemory.span.replace memoryLine.text freeMemory.plainText) 22 =
        some ⟨builtin[4], availableMemory, span⟩ := by
  have hp : availableMemory ∈ builtin[4].parameters := List.mem_cons_self
  have hspan : memoryLine.HasValueAt availableMemory.name.toList ⟨8, 13⟩ :=
    ⟨[.literal "(1 - ".toList], 1, [.literal " / ".toList, .placeholder 2 "total".toList,
      .literal ") * 100".toList], by decide +kernel, by decide +kernel⟩
  have hidentifiers : Vocabulary.HasIdentifiers ⟨["my_memory:free"], []⟩ := by
    constructor
    · decide +kernel
    · intro e he
      cases he
  obtain ⟨-, hrecognised⟩ := memoryLine.recognised hp
  obtain ⟨hfind, hproposals⟩ := hrecognised ⟨8, 13⟩ 10 hspan rfl
  have hcomplete : Placeholder.complete? ⟨["my_memory:free"], []⟩ memoryLine.text 10 =
      some [freeMemory] := by
    rw [Placeholder.complete?, hfind]
    decide +kernel
  obtain ⟨htext, hbehind⟩ := hproposals _ _ hidentifiers hcomplete freeMemory
    List.mem_cons_self ⟨memoryLine.text, 10, []⟩ rfl
  exact ⟨by decide +kernel, hfind, hcomplete, htext.trans (by decide +kernel), hbehind⟩

end PromqlAssist
