import PromqlAssist.Proofs.Grammar.Block
import PromqlAssist.Proofs.Grammar.Query
import PromqlAssist.Proofs.Grammar.Range
import PromqlAssist.Proofs.Rule.Arithmetic

/-!
# Operands and operators in queries

Every part of a query starts with signs and an operand and ends with an operand. An arithmetic
operator therefore makes a complete operation, and so do signs behind a set operator. All other
signs stand behind a bracket, a comma or another operator.
-/

namespace PromqlAssist.Grammar

open Text Rule

/-- What a part starts with. Arguments only start with no blank. -/
def Kind.Starts : Kind → Text → Prop
  | .operand, t => SignedOperand 0 t
  | .expression n, t => SignedOperand n t
  | .argument, t | .arguments, t => ∃ c ∈ t.head?, isBlank c = false

/-- What a part ends with. -/
def Kind.Ends : Kind → Text → Prop
  | .operand, t | .expression _, t => EndsOperand t
  | .argument, _ | .arguments, _ => True

/-- The characters behind which the leading signs of a part, if it has any, are signs. -/
def Kind.Admits : Kind → Option Char → Prop
  | .operand, _ | .expression 0, _ => True
  | .expression (_ + 1), last? | .argument, last? | .arguments, last? => AwaitsOperand last?

theorem Kind.admits_of_awaitsOperand (k : Kind) {last? : Option Char} (h : AwaitsOperand last?) :
    k.Admits last? := by
  cases k with
  | operand => trivial
  | expression n =>
    cases n with
    | zero => trivial
    | succ n => exact h
  | argument => exact h
  | arguments => exact h

theorem Kind.awaiting {k : Kind} {t : Text} (h : Settled k.Admits t) : Settled AwaitsOperand t :=
  h.mono fun _ hl => k.admits_of_awaitsOperand hl

namespace Number

variable (v : Number)

theorem starts : SignedOperand 0 v.text := by
  have hdigits : ∀ d : Digits, SignedOperand 0 d.text := fun d =>
    SignedOperand.word d.nonempty fun c hc => isIdent_of_isDigit (d.digits c hc)
  cases v with
  | integer whole => exact hdigits whole
  | decimal whole fraction => exact (hdigits whole).append _

theorem ends : EndsOperand v.text := by
  have hdigits : ∀ d : Digits, EndsOperand d.text := fun d =>
    EndsOperand.word d.nonempty fun c hc => isIdent_of_isDigit (d.digits c hc)
  cases v with
  | integer whole => exact hdigits whole
  | decimal whole fraction => exact ((hdigits fraction).append_left ['.']).append_left _

theorem settled : Settled anywhere v.text := by
  apply Settled.flat
  intro c hc
  rcases v.mem_text hc with hc | rfl
  · exact isArithmetic_of_isIdent hc
  · decide

end Number

namespace Selector

variable (s : Selector)

theorem starts : SignedOperand 0 (s.render StringLiteral.masked) :=
  (SignedOperand.word s.metric.text_ne_nil fun _ hc => s.metric.isIdent_of_mem hc).append _

theorem ends : EndsOperand (s.render StringLiteral.masked) := by
  obtain ⟨metric, block?⟩ := s
  cases block? with
  | none =>
    rw [render, Option.map_none, Option.getD_none, List.append_nil]
    exact EndsOperand.word metric.text_ne_nil fun c hc => metric.isIdent_of_mem hc
  | some b =>
    have hclose : EndsOperand ['}'] := EndsOperand.singleton (by decide)
    exact ((hclose.append_left _).append_left ['{']).append_left metric.text

theorem settled : Settled anywhere (s.render StringLiteral.masked) := by
  obtain ⟨metric, block?⟩ := s
  have hmetric : Settled anywhere metric.text := Settled.word fun c hc => metric.isIdent_of_mem hc
  refine hmetric.append ?_
  cases block? with
  | none => exact Settled.flat (by simp)
  | some b =>
    have hblock : Settled anywhere (b.render StringLiteral.masked) :=
      Settled.flat fun c hc => b.isArithmetic_of_mem hc
    exact hblock.wrap (by decide) (by decide)

end Selector

theorem Clause.settled (l : Clause) : Settled anywhere l.text := by
  have keywords : ∀ op ∈ Operator.groupings, ∀ c ∈ op.token.toList, isIdent c := by decide
  have hlabels : Settled anywhere l.labels.text := by
    apply Settled.flat
    intro c hc
    rcases l.labels.mem_text hc with hc | rfl | rfl
    · exact isArithmetic_of_isIdent hc
    · decide
    · decide
  have hkeyword : Settled anywhere l.keyword.token.toList := Settled.word (keywords _ l.known)
  exact hkeyword.append (Settled.blank (hlabels.wrap (by decide) (by decide)))

theorem FunctionOf.starts {kind : FunctionKind} (f : FunctionOf kind) (t : Text) :
    SignedOperand 0 (f.function.name.toList ++ t) :=
  (SignedOperand.word f.name_ne_nil fun _ hc => f.isIdent_of_mem hc).append t

theorem Aggregation.starts (a : Aggregation) (t : Text) :
    SignedOperand 0 (a.op.token.toList ++ t) :=
  (SignedOperand.word a.token_ne_nil fun _ hc => a.isIdent_of_mem hc).append t

namespace Binary

variable (op : Binary)

theorem arithmetic (h : op.op.category = .arithmetic) :
    ∃ c, op.op.token.toList = [c] ∧ isArithmetic c := by
  have operators : ∀ op ∈ Operator.binaries, op.category = .arithmetic →
      op.token.toList.length = 1 ∧ ∀ c ∈ op.token.toList, isArithmetic c := by decide
  obtain ⟨hlength, hc⟩ := operators op.op op.known h
  obtain ⟨c, htoken⟩ := List.length_eq_one_iff.mp hlength
  exact ⟨c, htoken, hc c (by simp [htoken])⟩

/-- A comparison ends with a character that a sign may follow. -/
theorem comparison (h : op.op.category = .comparison) :
    ∃ s c, op.op.token.toList = s ++ [c] ∧ (∀ d ∈ s, isArithmetic d = false) ∧
      isArithmetic c = false ∧ isBlank c = false ∧ precedesSign c := by
  have operators : ∀ op ∈ Operator.binaries, op.category = .comparison →
      op.token.toList ≠ [] ∧ ∀ c ∈ op.token.toList,
        isArithmetic c = false ∧ isBlank c = false ∧ precedesSign c := by decide
  obtain ⟨hne, hc⟩ := operators op.op op.known h
  refine ⟨op.op.token.toList.dropLast, op.op.token.toList.getLast hne,
    (List.dropLast_concat_getLast hne).symm, ?_, hc _ (List.getLast_mem hne)⟩
  intro d hd
  exact (hc d (List.dropLast_subset _ hd)).1

theorem set (h : op.op.category = .set) :
    op.op.token.toList ≠ [] ∧ ∀ c ∈ op.op.token.toList, isIdent c := by
  have operators : ∀ op ∈ Operator.binaries, op.category = .set →
      op.token.toList ≠ [] ∧ ∀ c ∈ op.token.toList, isIdent c := by decide
  exact operators op.op op.known h

variable {op} {admits : Option Char → Prop} {n : Nat} {left right : Text}

/-- An operator between two settled sides. -/
theorem settled (hadmits : op.op.category.Admits n) (hleft : Settled admits left)
    (hends : EndsOperand left) (hright : Settled (Kind.expression n).Admits right)
    (hstarts : SignedOperand n right) :
    Settled admits (left ++ ' ' :: (op.op.token.toList ++ ' ' :: right)) := by
  cases hcategory : op.op.category with
  | arithmetic =>
    rw [hcategory] at hadmits
    obtain ⟨c, htoken, hc⟩ := op.arithmetic hcategory
    refine .inl (hends.hasCompleteOperation ?_)
    rw [htoken, List.singleton_append, hasOperation_blank (c := ' ') (by decide)]
    refine hstarts.hasOperation hadmits hc ?_
    rw [trimStart_blank (c := ' ') (by decide), hstarts.trimStart_eq]
  | comparison =>
    obtain ⟨s, c, htoken, hs, hc, hblank, hsign⟩ := op.comparison hcategory
    have hright' : Settled AwaitsOperand right := Kind.awaiting hright
    have hop : Settled anywhere s := Settled.flat hs
    rw [htoken, List.append_assoc]
    exact hleft.append (Settled.blank (hop.append (Settled.cons hc hblank hsign hright'.blank)))
  | set =>
    rw [hcategory] at hadmits
    obtain ⟨htoken, hident⟩ := op.set hcategory
    cases n with
    | zero =>
      have hop : Settled anywhere op.op.token.toList := Settled.word hident
      exact hleft.append (Settled.blank (hop.append (Settled.blank hright)))
    | succ n =>
      -- The operator is read as an operand, and the first sign as an operator behind it.
      have hop : hasCompleteOperation (op.op.token.toList ++ ' ' :: right) := by
        refine (EndsOperand.word htoken hident).hasCompleteOperation ?_
        rw [hasOperation_blank (c := ' ') (by decide)]
        exact hstarts.hasOperation_self (Nat.le_of_succ_le_succ hadmits)
      have hspaced := hasCompleteOperation_append_left hop [' ']
      exact .inl (hasCompleteOperation_append_left hspaced left)

end Binary

namespace Part

variable {k : Kind}

theorem starts (q : Part k) : k.Starts q.masked := by
  induction q with
  | number value => exact value.starts
  | selector s => exact s.starts
  | rangeCall f s range => exact f.starts _
  | call f args _ => exact f.starts _
  | aggregate a args _ => exact a.starts _
  | aggregateBy a clause args _ => exact a.starts _
  | aggregateOver a args clause _ => exact a.starts _
  | group e _ => exact .operand (by decide)
  | operand e ih => exact ih
  | signed sign e ih =>
    refine .sign ?_ ih
    cases sign <;> decide
  | binary left op right admits ihl _ => exact SignedOperand.append ihl _
  | argument e ih => exact SignedOperand.head ih
  | string s => exact ⟨'"', rfl, by decide⟩
  | last arg ih => exact ih
  | more arg args iharg _ =>
    obtain ⟨c, hmem, hc⟩ := iharg
    refine ⟨c, ?_, hc⟩
    change c ∈ (arg.masked ++ ',' :: ' ' :: args.masked).head?
    rw [List.head?_append, Option.mem_def.mp hmem]
    rfl

theorem ends (q : Part k) : k.Ends q.masked := by
  have hclose : EndsOperand [')'] := EndsOperand.singleton (by decide)
  -- Whatever stands in front of a closing parenthesis, and in front of the opening one.
  have hcall : ∀ s t : Text, EndsOperand (s ++ '(' :: (t ++ [')'])) := fun s t =>
    ((hclose.append_left t).append_left ['(']).append_left s
  induction q with
  | number value => exact value.ends
  | selector s => exact s.ends
  | rangeCall f s range =>
    change EndsOperand _
    simpa [masked, render] using
      hcall f.function.name.toList (s.render StringLiteral.masked ++ '[' :: (range.text ++ [']']))
  | call f args _ => exact hcall f.function.name.toList args.masked
  | aggregate a args _ => exact hcall a.op.token.toList args.masked
  | aggregateBy a clause args _ =>
    change EndsOperand _
    simpa [masked, render] using
      hcall (a.op.token.toList ++ ' ' :: (clause.text ++ [' '])) args.masked
  | aggregateOver a args clause _ =>
    change EndsOperand _
    simpa [masked, render, Clause.text] using
      hcall (a.op.token.toList ++ '(' :: (args.masked ++ ')' :: ' ' ::
        (clause.keyword.token.toList ++ [' ']))) clause.labels.text
  | group e _ => exact hcall [] e.masked
  | operand e ih => exact ih
  | signed sign e ih => exact EndsOperand.append_left ih [sign.char]
  | binary left op right admits _ ihr =>
    have hright : EndsOperand (' ' :: right.masked) := EndsOperand.append_left ihr [' ']
    exact ((hright.append_left op.op.token.toList).append_left [' ']).append_left left.masked
  | argument e _ => trivial
  | string s => trivial
  | last arg _ => trivial
  | more arg args _ _ => trivial

/-- No part of a query lacks an operand. -/
theorem settled (q : Part k) : Settled k.Admits q.masked := by
  induction q with
  | number value => exact value.settled
  | selector s => exact s.settled
  | rangeCall f s range =>
    have hname : Settled anywhere f.function.name.toList :=
      Settled.word fun c hc => f.isIdent_of_mem hc
    have hrange : Settled anywhere range.text := Settled.word fun c hc => range.isIdent_of_mem hc
    have hbody : Settled AwaitsOperand (s.render StringLiteral.masked ++ '[' ::
        (range.text ++ [']'])) :=
      (s.settled.append (hrange.wrap (by decide) (by decide))).mono fun _ _ => trivial
    change Settled anywhere _
    simpa [masked, render] using hname.append hbody.group
  | call f args ih =>
    have hname : Settled anywhere f.function.name.toList :=
      Settled.word fun c hc => f.isIdent_of_mem hc
    exact hname.append (Settled.group ih)
  | aggregate a args ih =>
    have hkeyword : Settled anywhere a.op.token.toList :=
      Settled.word fun c hc => a.isIdent_of_mem hc
    exact hkeyword.append (Settled.group ih)
  | aggregateBy a clause args ih =>
    have hkeyword : Settled anywhere a.op.token.toList :=
      Settled.word fun c hc => a.isIdent_of_mem hc
    have hargs : Settled anywhere ('(' :: (args.masked ++ [')'])) := Settled.group ih
    exact hkeyword.append (clause.settled.append hargs.blank).blank
  | aggregateOver a args clause ih =>
    have hkeyword : Settled anywhere a.op.token.toList :=
      Settled.word fun c hc => a.isIdent_of_mem hc
    have hargs : Settled anywhere ('(' :: (args.masked ++ [')'])) := Settled.group ih
    change Settled anywhere _
    simpa [masked, render] using hkeyword.append (hargs.append clause.settled.blank)
  | group e ih => exact (Kind.awaiting ih).group
  | operand e ih => exact ih
  | signed sign e ih =>
    refine Settled.sign ?_ (Kind.awaiting ih)
    cases sign <;> decide
  | binary left op right admits ihl ihr =>
    exact Binary.settled admits ihl left.ends ihr right.starts
  | argument e ih => exact Kind.awaiting ih
  | string s =>
    apply Settled.flat
    intro c hc
    rcases s.mem_masked hc with rfl | rfl
    · decide
    · decide
  | last arg ih => exact ih
  | more arg args iharg ih =>
    have hargs : Settled anywhere (',' :: ' ' :: args.masked) :=
      Settled.cons (by decide) (by decide) (by decide) (Settled.blank ih)
    exact Settled.append iharg hargs

end Part

end PromqlAssist.Grammar
