import Mathlib.Data.List.DropRight
import PromqlAssist.Proofs.Keyed

/-!
# Documents in any order of arrival

Of all that has arrived for a document since it was last removed, the store holds what has the
newest version, and the last to arrive if several have it. Which one that is does not depend on the
order in which different versions arrive, and what arrives for one document says nothing about
another.
-/

namespace PromqlAssist

namespace DocumentStore

/-- What is done to a store. -/
inductive Operation where
  | update (uri : String) (d : Document)
  | remove (uri : String)
deriving DecidableEq, Repr

namespace Operation

def uri : Operation → String
  | update uri _ => uri
  | remove uri => uri

/-- The document that arrives with an update. -/
def document? : Operation → Option Document
  | update _ d => some d
  | remove _ => none

end Operation

def step (store : DocumentStore) : Operation → DocumentStore
  | .update uri d => store.update uri d.version d.text
  | .remove uri => (store.remove uri).2

/-- The store behind a list of operations. -/
def after (store : DocumentStore) (ops : List Operation) : DocumentStore :=
  ops.foldl step store

/-- The documents that have arrived for an address since it was last removed, in order. -/
def arrivals (uri : String) (ops : List Operation) : List Document :=
  ((ops.filter fun op => op.uri = uri).rtakeWhile fun op => op.document?.isSome).filterMap
    (·.document?)

/-- The last of the documents that have the newest version. -/
def IsNewest (ds : List Document) (d : Document) : Prop :=
  ∃ front behind, ds = front ++ d :: behind ∧ (∀ e ∈ front, e.version ≤ d.version) ∧
    ∀ e ∈ behind, e.version < d.version

/-- Updates of documents by address. -/
abbrev updates (us : List (String × Document)) : List Operation :=
  us.map fun u => .update u.1 u.2

/-- Whether no version of a document occurs twice among updates. -/
def VersionsDiffer (us : List (String × Document)) : Prop :=
  us.Pairwise fun u v => u.1 = v.1 → u.2.version ≠ v.2.version

/-- What a store holds behind a list of operations. -/
structure ConvergenceLaw (ops : List Operation) : Prop where
  some_iff : ∀ uri d, (after [] ops).document? uri = some d ↔ IsNewest (arrivals uri ops) d
  none_iff : ∀ uri, (after [] ops).document? uri = none ↔ arrivals uri ops = []
  /-- Updates may arrive in any order. -/
  order : ∀ us us', VersionsDiffer us → us.Perm us' →
    (∀ uri, (after [] (ops ++ updates us)).document? uri =
      (after [] (ops ++ updates us')).document? uri) ∧
    (after [] (ops ++ updates us)).Perm (after [] (ops ++ updates us'))
  others : ∀ op uri, op.uri ≠ uri →
    (after [] (ops ++ [op])).document? uri = (after [] ops).document? uri

variable {store : DocumentStore} {uri other : String} {ops : List Operation} {op : Operation}
variable {ds es : List Document} {d e : Document} {us us' : List (String × Document)}

/-! ## The newest document -/

theorem isNewest_singleton : IsNewest [e] d ↔ d = e := by
  constructor
  · rintro ⟨front, behind, heq, -⟩
    cases front with
    | nil => exact (List.cons.inj heq).1.symm
    | cons x front => simp at heq
  · rintro rfl
    exact ⟨[], [], rfl, nofun, nofun⟩

theorem IsNewest.mem (h : IsNewest ds d) : d ∈ ds := by
  obtain ⟨front, behind, rfl, -⟩ := h
  simp

theorem IsNewest.version_le (h : IsNewest ds d) (he : e ∈ ds) : e.version ≤ d.version := by
  obtain ⟨front, behind, rfl, hfront, hbehind⟩ := h
  rcases List.mem_append.mp he with he | he
  · exact hfront e he
  · rcases List.mem_cons.mp he with rfl | he
    · exact Int.le_refl _
    · exact Int.le_of_lt (hbehind e he)

/-- The newest of what came first, unless something at least as new came later. -/
theorem isNewest_append : IsNewest (ds ++ es) d ↔
    (IsNewest es d ∧ ∀ e ∈ ds, e.version ≤ d.version) ∨
      (IsNewest ds d ∧ ∀ e ∈ es, e.version < d.version) := by
  constructor
  · rintro ⟨front, behind, heq, hfront, hbehind⟩
    obtain ⟨mid, rfl, rfl⟩ | ⟨mid, rfl, hmid⟩ := List.append_eq_append_iff.mp heq
    · exact .inl ⟨⟨mid, behind, rfl, fun e he => hfront e (List.mem_append_right _ he), hbehind⟩,
        fun e he => hfront e (List.mem_append_left _ he)⟩
    · cases mid with
      | nil =>
        obtain rfl := hmid
        exact .inl ⟨⟨[], behind, rfl, nofun, hbehind⟩, fun e he => hfront e (by simpa using he)⟩
      | cons x mid =>
        obtain ⟨rfl, rfl⟩ := List.cons.inj hmid
        exact .inr ⟨⟨front, mid, rfl, hfront, fun e he => hbehind e (List.mem_append_left _ he)⟩,
          fun e he => hbehind e (List.mem_append_right _ he)⟩
  · rintro (⟨⟨front, behind, rfl, hfront, hbehind⟩, hds⟩ | ⟨hd, hes⟩)
    · refine ⟨ds ++ front, behind, by simp, ?_, hbehind⟩
      exact List.forall_mem_append.mpr ⟨hds, hfront⟩
    · obtain ⟨front, behind, rfl, hfront, hbehind⟩ := hd
      refine ⟨front, behind ++ es, by simp, hfront, ?_⟩
      exact List.forall_mem_append.mpr ⟨hbehind, hes⟩

theorem isNewest_cons : IsNewest (e :: ds) d ↔
    (IsNewest ds d ∧ e.version ≤ d.version) ∨ (d = e ∧ ∀ x ∈ ds, x.version < d.version) := by
  rw [← List.singleton_append, isNewest_append, isNewest_singleton, List.forall_mem_singleton]

theorem IsNewest.unique (h : IsNewest ds d) (h' : IsNewest ds e) : d = e := by
  induction ds with
  | nil => cases h.mem
  | cons x ds ih =>
    rw [isNewest_cons] at h h'
    rcases h with ⟨h, hle⟩ | ⟨rfl, hlt⟩ <;> rcases h' with ⟨h', hle'⟩ | ⟨rfl, hlt'⟩
    · exact ih h h'
    · exact absurd (hlt' d h.mem) (Int.not_lt.mpr hle)
    · exact absurd (hlt e h'.mem) (Int.not_lt.mpr hle')
    · rfl

/-- Where all versions differ, the newest document is just the one with the greatest version. -/
theorem isNewest_iff_of_pairwise (h : ds.Pairwise fun d e => d.version ≠ e.version) :
    IsNewest ds d ↔ d ∈ ds ∧ ∀ e ∈ ds, e.version ≤ d.version := by
  refine ⟨fun hd => ⟨hd.mem, fun e he => hd.version_le he⟩, ?_⟩
  rintro ⟨hmem, hle⟩
  obtain ⟨front, behind, rfl⟩ := List.append_of_mem hmem
  refine ⟨front, behind, rfl, fun e he => hle e (List.mem_append_left _ he), fun e he => ?_⟩
  have hne := (List.pairwise_cons.mp (List.pairwise_append.mp h).2.1).1 e he
  exact Int.lt_iff_le_and_ne.mpr ⟨hle e (by simp [he]), Ne.symm hne⟩

/-! ## What has arrived -/

/-- Whether a store holds the newest of the documents that have arrived, or none if none has. -/
def Holds (ds : List Document) : Option Document → Prop
  | none => ds = []
  | some d => IsNewest ds d

variable {found? : Option Document}

theorem Holds.some_iff (h : Holds ds found?) : found? = some d ↔ IsNewest ds d := by
  cases found? with
  | none =>
    obtain rfl : ds = [] := h
    exact iff_of_false nofun fun hd => by cases hd.mem
  | some found =>
    rw [Option.some.injEq]
    exact ⟨fun heq => heq ▸ h, fun hd => IsNewest.unique h hd⟩

theorem Holds.none_iff (h : Holds ds found?) : found? = none ↔ ds = [] := by
  cases found? with
  | none => exact iff_of_true rfl h
  | some found =>
    refine iff_of_false nofun ?_
    rintro rfl
    cases IsNewest.mem h

theorem document?_update_self (store : DocumentStore) (uri : String) (d : Document) :
    (store.update uri d.version d.text).document? uri =
      match store.document? uri with
      | some old => some (if old.version ≤ d.version then d else old)
      | none => some d := by
  unfold update document?
  cases hold : Keyed.get? uri store with
  | none => exact Keyed.get?_put_self uri d store
  | some old =>
    dsimp only
    split
    · exact Keyed.get?_put_self uri d store
    · exact hold

/-- An update is kept unless something newer is there. -/
theorem Holds.update (h : Holds ds (store.document? uri)) (d : Document) :
    Holds (ds ++ [d]) ((store.update uri d.version d.text).document? uri) := by
  rw [document?_update_self]
  cases hold : store.document? uri with
  | none =>
    rw [hold] at h
    obtain rfl : ds = [] := h
    exact isNewest_singleton.mpr rfl
  | some old =>
    rw [hold] at h
    have hold : IsNewest ds old := h
    by_cases hle : old.version ≤ d.version
    · simp only [if_pos hle]
      refine isNewest_append.mpr (.inl ⟨isNewest_singleton.mpr rfl, fun e he => ?_⟩)
      exact Int.le_trans (hold.version_le he) hle
    · simp only [if_neg hle]
      refine isNewest_append.mpr (.inr ⟨hold, List.forall_mem_singleton.mpr ?_⟩)
      exact Int.not_le.mp hle

theorem arrivals_concat_of_ne (h : op.uri ≠ uri) (ops : List Operation) :
    arrivals uri (ops ++ [op]) = arrivals uri ops := by
  simp [arrivals, h]

theorem arrivals_concat_update (uri : String) (ops : List Operation) (d : Document) :
    arrivals uri (ops ++ [.update uri d]) = arrivals uri ops ++ [d] := by
  simp [arrivals, Operation.uri, Operation.document?]

theorem arrivals_concat_remove (uri : String) (ops : List Operation) :
    arrivals uri (ops ++ [.remove uri]) = [] := by
  simp [arrivals, Operation.uri, Operation.document?]

theorem after_concat (store : DocumentStore) (ops : List Operation) (op : Operation) :
    store.after (ops ++ [op]) = (store.after ops).step op := by
  simp [after]

theorem document?_step_of_ne (h : op.uri ≠ uri) (store : DocumentStore) :
    (store.step op).document? uri = store.document? uri := by
  cases op with
  | update changed d => exact document?_update_of_ne (Ne.symm h) d.version d.text
  | remove removed => exact Keyed.get?_erase_of_ne (Ne.symm h) store

theorem holds_after (ops : List Operation) (uri : String) :
    Holds (arrivals uri ops) ((after [] ops).document? uri) := by
  induction ops using List.reverseRecOn with
  | nil => rfl
  | append_singleton ops op ih =>
    rw [after_concat]
    by_cases huri : op.uri = uri
    · subst huri
      cases op with
      | update uri d =>
        rw [Operation.uri, arrivals_concat_update]
        exact ih.update d
      | remove uri =>
        rw [Operation.uri, arrivals_concat_remove]
        change Holds [] (Keyed.get? uri (Keyed.erase uri _))
        rw [Keyed.get?_erase_self]
        rfl
    · rw [arrivals_concat_of_ne huri, document?_step_of_ne huri]
      exact ih

/-! ## The order of arrival -/

/-- The documents that updates bring to an address. -/
def broughtTo (uri : String) (us : List (String × Document)) : List Document :=
  (us.filter fun u => u.1 = uri).map (·.2)

theorem arrivals_append_updates (uri : String) (ops : List Operation)
    (us : List (String × Document)) :
    arrivals uri (ops ++ updates us) = arrivals uri ops ++ broughtTo uri us := by
  induction us using List.reverseRecOn with
  | nil => simp [broughtTo]
  | append_singleton us u ih =>
    obtain ⟨changed, d⟩ := u
    rw [updates, List.map_append, ← List.append_assoc, List.map_singleton]
    by_cases huri : changed = uri
    · subst huri
      rw [arrivals_concat_update, ih]
      simp [broughtTo]
    · have hop : (Operation.update changed d).uri ≠ uri := huri
      rw [arrivals_concat_of_ne hop, ih]
      simp [broughtTo, huri]

theorem pairwise_broughtTo (h : VersionsDiffer us) (uri : String) :
    (broughtTo uri us).Pairwise fun d e => d.version ≠ e.version := by
  unfold broughtTo
  rw [List.pairwise_map, List.pairwise_filter]
  apply h.imp
  intro u v hne hu hv
  simp only [decide_eq_true_eq] at hu hv
  exact hne (hu.trans hv.symm)

theorem VersionsDiffer.perm (h : VersionsDiffer us) (hperm : us.Perm us') : VersionsDiffer us' := by
  apply hperm.pairwise h
  intro u v hne huri hversion
  exact hne huri.symm hversion.symm

theorem document?_after_perm (h : VersionsDiffer us) (hperm : us.Perm us') (ops : List Operation)
    (uri : String) : (after [] (ops ++ updates us)).document? uri =
      (after [] (ops ++ updates us')).document? uri := by
  have hbrought : (broughtTo uri us).Perm (broughtTo uri us') := (hperm.filter _).map _
  apply Option.ext
  intro d
  rw [(holds_after _ uri).some_iff, (holds_after _ uri).some_iff, arrivals_append_updates,
    arrivals_append_updates, isNewest_append, isNewest_append,
    isNewest_iff_of_pairwise (pairwise_broughtTo h uri),
    isNewest_iff_of_pairwise (pairwise_broughtTo (h.perm hperm) uri)]
  simp only [hbrought.mem_iff]

theorem nodup_keys_step (h : (store.map (·.1)).Nodup) (op : Operation) :
    ((store.step op).map (·.1)).Nodup := by
  cases op with
  | remove uri => exact Keyed.nodup_keys_erase h
  | update uri d =>
    rw [step, DocumentStore.update]
    split
    · split
      · exact Keyed.nodup_keys_put h
      · exact h
    · exact Keyed.nodup_keys_put h

theorem nodup_keys_after (ops : List Operation) : ((after [] ops).map (·.1)).Nodup := by
  induction ops using List.reverseRecOn with
  | nil => exact List.nodup_nil
  | append_singleton ops op ih =>
    rw [after_concat]
    exact nodup_keys_step ih op

/-- Stores with the same documents are equal but for the order of the addresses. -/
theorem perm_of_document? {first second : DocumentStore} (hfirst : (first.map (·.1)).Nodup)
    (hsecond : (second.map (·.1)).Nodup)
    (h : ∀ uri, first.document? uri = second.document? uri) : first.Perm second := by
  rw [List.perm_ext_iff_of_nodup hfirst.of_map hsecond.of_map]
  rintro ⟨uri, d⟩
  rw [← Keyed.get?_eq_some_iff hfirst, ← Keyed.get?_eq_some_iff hsecond]
  exact iff_of_eq (congrArg (· = some d) (h uri))

/-- Whatever is done to a store, it goes by versions and not by the order of arrival. -/
theorem convergenceLaw_after (ops : List Operation) : ConvergenceLaw ops where
  some_iff := fun uri _ => (holds_after ops uri).some_iff
  none_iff := fun uri => (holds_after ops uri).none_iff
  order := by
    intro us us' hdiffer hperm
    have hsame := document?_after_perm hdiffer hperm ops
    exact ⟨hsame, perm_of_document? (nodup_keys_after _) (nodup_keys_after _) hsame⟩
  others := by
    intro op uri huri
    rw [after_concat, document?_step_of_ne huri]

/-- Updates in reverse order, behind a document that was removed and has come back. -/
theorem convergenceLaw_after_reopened :
    let ops := [.update "q" ⟨3, ['a']⟩, .remove "q", .update "q" ⟨-1, ['b']⟩]
    let us : List (String × Document) := [("q", ⟨2, ['c']⟩), ("r", ⟨2, ['d']⟩), ("q", ⟨1, ['e']⟩)]
    VersionsDiffer us ∧ us.Perm us.reverse ∧
      (after [] (ops ++ updates us)).document? "q" =
        (after [] (ops ++ updates us.reverse)).document? "q" ∧
      (after [] (ops ++ updates us)).document? "q" = some ⟨2, ['c']⟩ := by
  intro ops us
  have hdiffer : VersionsDiffer us := by
    unfold VersionsDiffer
    decide
  have hperm : us.Perm us.reverse := us.reverse_perm.symm
  exact ⟨hdiffer, hperm, ((convergenceLaw_after ops).order us _ hdiffer hperm).1 "q", by decide⟩

end DocumentStore

end PromqlAssist
