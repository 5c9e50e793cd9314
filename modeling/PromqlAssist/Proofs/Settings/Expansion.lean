import Mathlib.Data.List.Forall2
import Mathlib.Logic.ExistsUnique
import PromqlAssist.Proofs.Text.Basic
import PromqlAssist.Settings.Environment

/-!
# References as tokens

A text with references is cut into tokens: runs without a dollar sign, references in braces, named
references, and dollar signs that refer to nothing. Each token reaches as far as it can, so there is
one way to cut a text. Expansion puts one part in the place of each token and does not look at the
parts again; it fails at the first token whose variable is not set and that has no default.
-/

namespace PromqlAssist

open TextPiece

/-- A token of a text with references. -/
inductive ReferenceToken where
  /-- Literal text without a dollar sign. -/
  | run (t : Text)
  /-- What stands between braces, of which the second may be missing at the end of the text. -/
  | braced (body : Text) (closed : Bool)
  | named (name : Text)
  /-- A dollar sign that refers to nothing. -/
  | lone
deriving DecidableEq, Repr

namespace ReferenceToken

/-- How a token is written. -/
def text : ReferenceToken → Text
  | run t => t
  | braced body closed => '$' :: '{' :: (body ++ if closed then ['}'] else [])
  | named name => '$' :: name
  | lone => ['$']

/-- Whether a token may stand in front of `rest`: it reaches as far as it can. -/
def Fits (rest : Text) : ReferenceToken → Prop
  | run t => t ≠ [] ∧ '$' ∉ t ∧ ∀ c ∈ rest.head?, c = '$'
  | braced body closed => '}' ∉ body ∧ (closed = false → rest = [])
  | named name => name ≠ [] ∧ (∀ c ∈ name, isNameChar c) ∧ ∀ c ∈ rest.head?, isNameChar c = false
  | lone => ∀ c ∈ rest.head?, c ≠ '{' ∧ isNameChar c = false

instance (rest : Text) : (token : ReferenceToken) → Decidable (token.Fits rest)
  | run t =>
    letI : Decidable (∀ c ∈ rest.head?, c = '$') := Option.decidableForallMem _
    inferInstanceAs (Decidable (t ≠ [] ∧ '$' ∉ t ∧ ∀ c ∈ rest.head?, c = '$'))
  | braced body closed =>
    inferInstanceAs (Decidable ('}' ∉ body ∧ (closed = false → rest = [])))
  | named name =>
    letI : Decidable (∀ c ∈ name, isNameChar c) := List.decidableBAll _ _
    letI : Decidable (∀ c ∈ rest.head?, isNameChar c = false) := Option.decidableForallMem _
    inferInstanceAs (Decidable
      (name ≠ [] ∧ (∀ c ∈ name, isNameChar c) ∧ ∀ c ∈ rest.head?, isNameChar c = false))
  | lone => Option.decidableForallMem _

/-- The tokens of a text, in order. -/
inductive Cut : List ReferenceToken → Text → Prop
  | nil : Cut [] []
  | cons {token : ReferenceToken} {tokens : List ReferenceToken} {rest : Text}
    (fits : token.Fits rest) (cut : Cut tokens rest) : Cut (token :: tokens) (token.text ++ rest)

/-- The variable that a token refers to, and its default. The default stands behind the first `:-`
between the braces. -/
inductive RefersTo : ReferenceToken → Text → Option Text → Prop
  | named (name : Text) : RefersTo (.named name) name none
  | braced {body : Text} (closed : Bool) (plain : ¬ [':', '-'] <:+: body) :
    RefersTo (.braced body closed) body none
  | default {name : Text} (closed : Bool) (first : ¬ [':', '-'] <:+: name) (default : Text) :
    RefersTo (.braced (name ++ ':' :: '-' :: default) closed) name (some default)

/-- The part that stands for a token in the expanded text. -/
inductive Yields (env : Environment) : ReferenceToken → Text → Prop
  | run (t : Text) : Yields env (.run t) t
  | lone : Yields env .lone ['$']
  | value {token : ReferenceToken} {name value : Text} {default? : Option Text}
    (refers : token.RefersTo name default?) (set : env name = some value) : Yields env token value
  | default {token : ReferenceToken} {name default : Text}
    (refers : token.RefersTo name (some default)) (unset : env name = none) :
    Yields env token default

/-- Whether a token refers to a variable that is not set, without a default. -/
def Misses (env : Environment) (token : ReferenceToken) (name : Text) : Prop :=
  token.RefersTo name none ∧ env name = none

/-- The variable that the first such token refers to. -/
def FirstMissing (env : Environment) (tokens : List ReferenceToken) (name : Text) : Prop :=
  ∃ front token behind, tokens = front ++ token :: behind ∧ token.Misses env name ∧
    ∀ earlier ∈ front, ∀ other, ¬ earlier.Misses env other

end ReferenceToken

/-- Expansion puts a part in the place of each token of a text. -/
structure Environment.SubstitutionLaw (env : Environment) (t : Text) : Prop where
  cut : ∃! tokens, ReferenceToken.Cut tokens t
  error_iff : ∀ tokens, ReferenceToken.Cut tokens t → ∀ e, env.expand t = .error e ↔
    ∃ name, e = .missingVariable name ∧ ReferenceToken.FirstMissing env tokens name
  ok_iff : ∀ tokens, ReferenceToken.Cut tokens t → ∀ s, env.expand t = .ok s ↔
    ∃ parts, List.Forall₂ (ReferenceToken.Yields env) tokens parts ∧ s = parts.flatten
  unchanged : '$' ∉ t → env.expand t = .ok t

namespace ReferenceToken

variable {env : Environment} {token : ReferenceToken} {tokens : List ReferenceToken}
variable {rest t body name part : Text} {default? : Option Text}

/-! ## Cutting a text -/

/-- The first token of a text, and the text behind it. -/
def next? : Text → Option (ReferenceToken × Text)
  | [] => none
  | '$' :: '{' :: t =>
    match t.dropWhile (· ≠ '}') with
    | [] => some (braced t false, [])
    | _ :: rest => some (braced (t.takeWhile (· ≠ '}')) true, rest)
  | '$' :: t =>
    if t.takeWhile isNameChar = [] then some (lone, t)
    else some (named (t.takeWhile isNameChar), t.dropWhile isNameChar)
  | c :: t => some (run (c :: t.takeWhile (· ≠ '$')), t.dropWhile (· ≠ '$'))

theorem text_ne_nil (h : token.Fits rest) : token.text ≠ [] := by
  cases token with
  | run t => exact h.1
  | braced body closed => exact List.cons_ne_nil _ _
  | named name => exact List.cons_ne_nil _ _
  | lone => exact List.cons_ne_nil _ _

/-- A name does not start with a brace. -/
theorem head_ne_brace (hne : name ≠ []) (hname : ∀ c ∈ name, isNameChar c) (rest : Text) :
    ∀ c ∈ (name ++ rest).head?, c ≠ '{' := by
  have hbrace : isNameChar '{' = false := by decide +kernel
  intro c hc
  cases name with
  | nil => exact absurd rfl hne
  | cons d name =>
    obtain rfl : d = c := by simpa using hc
    rintro rfl
    rw [hname '{' List.mem_cons_self] at hbrace
    cases hbrace

theorem next?_dollar (h : ∀ c ∈ t.head?, c ≠ '{') :
    next? ('$' :: t) = if t.takeWhile isNameChar = [] then some (lone, t)
      else some (named (t.takeWhile isNameChar), t.dropWhile isNameChar) := by
  rw [next?]
  rintro rest rfl
  exact h '{' rfl rfl

theorem next?_text_append (h : token.Fits rest) :
    next? (token.text ++ rest) = some (token, rest) := by
  cases token with
  | run t =>
    obtain ⟨hne, hdollar, hrest⟩ := h
    have hrest' : ∀ c ∈ rest.head?, decide (c ≠ '$') = false := by
      intro c hc
      simpa using hrest c hc
    cases t with
    | nil => exact absurd rfl hne
    | cons c t =>
      rw [List.mem_cons, not_or] at hdollar
      have hrun := Text.forall_ne_of_not_mem hdollar.2
      rw [text, List.cons_append, next?, Text.takeWhile_run hrun hrest',
        Text.dropWhile_run hrun hrest']
      · rintro rest rfl
        exact absurd rfl hdollar.1
      · rintro rfl
        exact absurd rfl hdollar.1
  | braced body closed =>
    obtain ⟨hbody, hclosed⟩ := h
    cases closed with
    | true =>
      simp only [text, if_true, List.cons_append, List.append_assoc, List.nil_append]
      rw [next?, Text.dropWhile_ne_append hbody, Text.takeWhile_ne_append hbody]
    | false =>
      obtain rfl := hclosed rfl
      simp only [text, Bool.false_eq_true, if_false, List.append_nil]
      rw [next?, Text.dropWhile_ne_eq_nil hbody]
  | named name =>
    obtain ⟨hne, hname, hrest⟩ := h
    rw [text, List.cons_append, next?_dollar (head_ne_brace hne hname rest),
      Text.takeWhile_run hname hrest, Text.dropWhile_run hname hrest, if_neg hne]
  | lone =>
    have hnone : rest.takeWhile isNameChar = [] :=
      Text.takeWhile_run (s := []) (by simp) fun c hc => (h c hc).2
    rw [text, List.singleton_append, next?_dollar fun c hc => (h c hc).1, if_pos hnone]

/-- A dollar sign starts a token that fits. -/
theorem exists_fits_dollar (t : Text) :
    ∃ token rest, '$' :: t = text token ++ rest ∧ Fits rest token := by
  by_cases hbrace : t.head? = some '{'
  · obtain ⟨body, rfl⟩ := List.head?_eq_some_iff.mp hbrace
    have hmem : '}' ∉ body.takeWhile (· ≠ '}') := by
      intro hmem
      simpa using List.all_eq_true.mp List.all_takeWhile _ hmem
    have hsplit := List.takeWhile_append_dropWhile (p := fun c => decide (c ≠ '}')) (l := body)
    cases hrest : body.dropWhile (· ≠ '}') with
    | nil =>
      rw [hrest, List.append_nil] at hsplit
      exact ⟨braced body false, [], by simp [text], hsplit ▸ hmem, fun _ => rfl⟩
    | cons c rest =>
      have hclose := Text.head?_dropWhile (fun c => decide (c ≠ '}')) body c (by rw [hrest]; rfl)
      obtain rfl : c = '}' := by simpa using hclose
      refine ⟨braced (body.takeWhile (· ≠ '}')) true, rest, ?_, hmem, by simp⟩
      rw [hrest] at hsplit
      simp only [text, if_true, List.cons_append, List.append_assoc, List.nil_append]
      rw [hsplit]
  · by_cases hname : t.takeWhile isNameChar = []
    · have hrest := List.takeWhile_append_dropWhile (p := isNameChar) (l := t)
      rw [hname, List.nil_append] at hrest
      refine ⟨lone, t, rfl, fun c hc => ⟨?_, ?_⟩⟩
      · rintro rfl
        exact hbrace hc
      · exact Text.head?_dropWhile isNameChar t c (by rwa [hrest])
    · refine ⟨named (t.takeWhile isNameChar), t.dropWhile isNameChar, ?_, hname, ?_, ?_⟩
      · rw [text, List.cons_append, List.takeWhile_append_dropWhile]
      · exact List.all_eq_true.mp List.all_takeWhile
      · exact Text.head?_dropWhile isNameChar t

theorem exists_fits (h : t ≠ []) : ∃ token rest, t = text token ++ rest ∧ Fits rest token := by
  cases t with
  | nil => exact absurd rfl h
  | cons c t =>
    by_cases hc : c = '$'
    · exact hc ▸ exists_fits_dollar t
    · refine ⟨run (c :: t.takeWhile (· ≠ '$')), t.dropWhile (· ≠ '$'), ?_, ?_, ?_, ?_⟩
      · rw [text, List.cons_append, List.takeWhile_append_dropWhile]
      · exact List.cons_ne_nil _ _
      · rw [List.mem_cons, not_or]
        refine ⟨Ne.symm hc, fun hmem => ?_⟩
        simpa using List.all_eq_true.mp List.all_takeWhile _ hmem
      · intro d hd
        simpa using Text.head?_dropWhile (fun c => decide (c ≠ '$')) t d hd

/-- A text is cut into tokens in one way. -/
theorem existsUnique_cut (t : Text) : ∃! tokens, Cut tokens t := by
  induction hn : t.length using Nat.strongRecOn generalizing t with
  | ind n ih =>
    by_cases ht : t = []
    · subst ht
      refine ⟨[], .nil, fun tokens hcut => ?_⟩
      generalize hempty : ([] : Text) = s at hcut
      cases hcut with
      | nil => rfl
      | cons fits cut => exact absurd (List.append_eq_nil_iff.mp hempty.symm).1 (text_ne_nil fits)
    · obtain ⟨token, rest, rfl, hfits⟩ := exists_fits ht
      have hpos := List.length_pos_iff.mpr (text_ne_nil hfits)
      rw [List.length_append] at hn
      obtain ⟨tokens, hcut, hunique⟩ := ih rest.length (by omega) rest rfl
      refine ⟨token :: tokens, .cons hfits hcut, fun others hothers => ?_⟩
      generalize hsame : token.text ++ rest = s at hothers
      cases hothers with
      | nil => exact absurd hsame ht
      | cons fits cut =>
        have hnext := next?_text_append hfits
        rw [hsame, next?_text_append fits] at hnext
        obtain ⟨rfl, rfl⟩ := Prod.mk.inj (Option.some.inj hnext)
        rw [hunique _ cut]

/-! ## What a token stands for -/

/-- The part that expansion puts in the place of a token. -/
def substitute (env : Environment) : ReferenceToken → Except SettingsError Text
  | run t => .ok t
  | braced body _ => (ofBody body).expand env
  | named name => (TextPiece.reference name none).expand env
  | lone => .ok ['$']

theorem expand_reference_eq_ok_iff : (TextPiece.reference name default?).expand env = .ok part ↔
    env name = some part ∨ env name = none ∧ default? = some part := by
  unfold TextPiece.expand
  cases hname : env name <;> cases default? <;> simp [hname]

theorem expand_reference_eq_error_iff {e : SettingsError} :
    (TextPiece.reference name default?).expand env = .error e ↔
      e = .missingVariable name ∧ env name = none ∧ default? = none := by
  unfold TextPiece.expand
  cases hname : env name <;> cases default? <;> simp [hname, eq_comm]

theorem refersTo_named_iff {other : Text} :
    (named name).RefersTo other default? ↔
      TextPiece.reference name none = .reference other default? := by
  constructor
  · rintro ⟨⟩
    rfl
  · rintro ⟨⟩
    exact .named name

theorem refersTo_braced_iff {closed : Bool} :
    (braced body closed).RefersTo name default? ↔ ofBody body = .reference name default? := by
  have hmark : ":-".toList = [':', '-'] := by decide
  rw [ofBody, hmark]
  constructor
  · intro h
    cases h with
    | braced _ plain =>
      cases hsplit : Text.splitAt? [':', '-'] body with
      | none => rfl
      | some parts =>
        obtain ⟨rfl, -⟩ := Text.splitAt?_eq_some (List.cons_ne_nil _ _) hsplit
        exact absurd ⟨parts.1, parts.2, by simp⟩ plain
    | default _ first default =>
      rw [Text.splitAt?_pair (by decide) first default]
  · intro h
    split at h
    · rename_i front behind hsplit
      obtain ⟨rfl, rfl⟩ : front = name ∧ some behind = default? := by simpa using h
      obtain ⟨rfl, hfirst⟩ := Text.splitAt?_eq_some (List.cons_ne_nil _ _) hsplit
      exact .default closed hfirst behind
    · rename_i hsplit
      obtain ⟨rfl, rfl⟩ : body = name ∧ none = default? := by simpa using h
      exact .braced closed (Text.not_infix_of_splitAt? hsplit)

/-- A token either is literal text or refers to one variable. -/
theorem substitute_cases (env : Environment) (token : ReferenceToken) :
    (∃ t, token.substitute env = .ok t ∧ (∀ part, token.Yields env part ↔ part = t) ∧
      ∀ name default?, ¬ token.RefersTo name default?) ∨
    ∃ name default?, token.substitute env = (TextPiece.reference name default?).expand env ∧
      ∀ other other?, token.RefersTo other other? ↔ other = name ∧ other? = default? := by
  cases token with
  | run t =>
    refine .inl ⟨t, rfl, fun part => ⟨?_, ?_⟩, nofun⟩
    · rintro (_ | _ | ⟨⟨⟩, _⟩ | ⟨⟨⟩, _⟩)
      rfl
    · rintro rfl
      exact .run part
  | lone =>
    refine .inl ⟨['$'], rfl, fun part => ⟨?_, ?_⟩, nofun⟩
    · rintro (_ | _ | ⟨⟨⟩, _⟩ | ⟨⟨⟩, _⟩)
      rfl
    · rintro rfl
      exact .lone
  | named name =>
    refine .inr ⟨name, none, rfl, fun other other? => ?_⟩
    rw [refersTo_named_iff, TextPiece.reference.injEq, eq_comm, eq_comm (a := none)]
  | braced body closed =>
    obtain ⟨name, default?, hbody⟩ : ∃ name default?, ofBody body = .reference name default? := by
      unfold ofBody
      split
      · exact ⟨_, _, rfl⟩
      · exact ⟨_, _, rfl⟩
    refine .inr ⟨name, default?, by rw [substitute, hbody], fun other other? => ?_⟩
    rw [refersTo_braced_iff, hbody, TextPiece.reference.injEq, eq_comm, eq_comm (a := default?)]

theorem substitute_eq_ok_iff : token.substitute env = .ok part ↔ token.Yields env part := by
  obtain ⟨t, hsub, hyields, -⟩ | ⟨name, default?, hsub, hrefers⟩ := substitute_cases env token
  · rw [hsub, hyields, Except.ok.injEq, eq_comm]
  · have hself := (hrefers name default?).mpr ⟨rfl, rfl⟩
    rw [hsub, expand_reference_eq_ok_iff]
    constructor
    · rintro (hset | ⟨hunset, rfl⟩)
      · exact .value hself hset
      · exact .default hself hunset
    · intro hyields
      cases hyields with
      | run t => cases hself
      | lone => cases hself
      | value refers set =>
        obtain ⟨rfl, rfl⟩ := (hrefers _ _).mp refers
        exact .inl set
      | default refers unset =>
        obtain ⟨rfl, rfl⟩ := (hrefers _ _).mp refers
        exact .inr ⟨unset, rfl⟩

theorem substitute_eq_error_iff {e : SettingsError} :
    token.substitute env = .error e ↔
      ∃ name, e = .missingVariable name ∧ token.Misses env name := by
  obtain ⟨t, hsub, -, hliteral⟩ | ⟨name, default?, hsub, hrefers⟩ := substitute_cases env token
  · rw [hsub]
    refine iff_of_false nofun ?_
    rintro ⟨name, -, hmisses⟩
    exact hliteral _ _ hmisses.1
  · rw [hsub, expand_reference_eq_error_iff]
    constructor
    · rintro ⟨rfl, hunset, rfl⟩
      exact ⟨name, rfl, (hrefers _ _).mpr ⟨rfl, rfl⟩, hunset⟩
    · rintro ⟨other, rfl, hmisses, hunset⟩
      obtain ⟨rfl, rfl⟩ := (hrefers _ _).mp hmisses
      exact ⟨rfl, hunset, rfl⟩

end ReferenceToken

/-! ## Expanding a text token by token -/

namespace Environment

open ReferenceToken

variable {env : Environment} {token : ReferenceToken} {tokens : List ReferenceToken}
variable {piece : TextPiece} {rest s t : Text} {e : SettingsError}

theorem expand_nil (env : Environment) : env.expand [] = .ok [] := by
  rw [Environment.expand, ofText]
  rfl

/-- The pieces of a text are expanded one by one. -/
theorem expand_of_ofText (h : ofText t = piece :: ofText rest) :
    env.expand t = (piece.expand env).bind fun part => (env.expand rest).map (part ++ ·) := by
  rw [Environment.expand, Environment.expand, h, List.mapM_cons]
  cases piece.expand env with
  | error e => rfl
  | ok part =>
    cases (ofText rest).mapM (TextPiece.expand env) with
    | error e => rfl
    | ok parts => rfl

theorem expand_literal {c : Char} (h : c ≠ '$') (t : Text) :
    env.expand (c :: t) = (env.expand t).map (c :: ·) := by
  have hpieces : ofText (c :: t) = .literal c :: ofText t := by
    rw [ofText]
    · rintro rest rfl
      exact absurd rfl h
    · rintro rfl
      exact absurd rfl h
  rw [expand_of_ofText hpieces]
  rfl

theorem expand_run (h : '$' ∉ t) (rest : Text) :
    env.expand (t ++ rest) = (env.expand rest).map (t ++ ·) := by
  induction t with
  | nil => cases hrest : env.expand rest <;> simp [hrest, Except.map]
  | cons c t ih =>
    rw [List.mem_cons, not_or] at h
    rw [List.cons_append, expand_literal (Ne.symm h.1), ih h.2]
    cases hrest : env.expand rest <;> rfl

theorem ofText_braced (t : Text) : ofText ('$' :: '{' :: t) =
    ofBody (t.takeWhile (· ≠ '}')) :: ofText (t.drop ((t.takeWhile (· ≠ '}')).length + 1)) := by
  rw [ofText]

theorem ofText_named (h : ∀ c ∈ t.head?, c ≠ '{') : ofText ('$' :: t) =
    if (t.takeWhile isNameChar).isEmpty then .literal '$' :: ofText t
    else .reference (t.takeWhile isNameChar) none ::
      ofText (t.drop (t.takeWhile isNameChar).length) := by
  rw [ofText]
  rintro rest rfl
  exact h '{' rfl rfl

/-- Expansion puts a part in the place of the first token and goes on behind it. -/
theorem expand_text_append (h : token.Fits rest) :
    env.expand (token.text ++ rest) =
      (token.substitute env).bind fun part => (env.expand rest).map (part ++ ·) := by
  cases token with
  | run t => exact expand_run h.2.1 rest
  | braced body closed =>
    obtain ⟨hbody, hclosed⟩ := h
    apply expand_of_ofText
    cases closed with
    | true =>
      simp only [text, if_true, List.cons_append, List.append_assoc, List.nil_append]
      rw [ofText_braced, Text.takeWhile_ne_append hbody]
      simp
    | false =>
      obtain rfl := hclosed rfl
      have hrun := Text.takeWhile_run (t := []) (Text.forall_ne_of_not_mem hbody) (by simp)
      simp only [text, Bool.false_eq_true, if_false, List.append_nil] at hrun ⊢
      rw [ofText_braced, hrun, List.drop_eq_nil_of_le (Nat.le_succ _)]
  | named name =>
    obtain ⟨hne, hname, hrest⟩ := h
    have hpieces : ofText ('$' :: (name ++ rest)) = .reference name none :: ofText rest := by
      rw [ofText_named (head_ne_brace hne hname rest), Text.takeWhile_run hname hrest,
        if_neg (by simpa using hne), List.drop_left]
    exact expand_of_ofText hpieces
  | lone =>
    have hnone : rest.takeWhile isNameChar = [] :=
      Text.takeWhile_run (s := []) (by simp) fun c hc => (h c hc).2
    have hpieces : ofText ('$' :: rest) = .literal '$' :: ofText rest := by
      rw [ofText_named fun c hc => (h c hc).1, hnone]
      rfl
    rw [text, List.singleton_append, expand_of_ofText hpieces]
    rfl

theorem firstMissing_cons_iff {name : Text} : FirstMissing env (token :: tokens) name ↔
    token.Misses env name ∨ (∀ other, ¬ token.Misses env other) ∧ FirstMissing env tokens name := by
  constructor
  · rintro ⟨front, missing, behind, heq, hmisses, hfront⟩
    cases front with
    | nil =>
      obtain ⟨rfl, rfl⟩ := List.cons.inj heq
      exact .inl hmisses
    | cons first front =>
      obtain ⟨rfl, rfl⟩ := List.cons.inj heq
      exact .inr ⟨hfront token List.mem_cons_self, front, missing, behind, rfl, hmisses,
        fun earlier hmem => hfront earlier (List.mem_cons_of_mem token hmem)⟩
  · rintro (hmisses | ⟨hnone, front, missing, behind, rfl, hmisses, hfront⟩)
    · exact ⟨[], token, tokens, rfl, hmisses, nofun⟩
    · exact ⟨token :: front, missing, behind, rfl, hmisses,
        List.forall_mem_cons.mpr ⟨hnone, hfront⟩⟩

theorem expand_eq_error_iff (h : Cut tokens t) : env.expand t = .error e ↔
    ∃ name, e = .missingVariable name ∧ FirstMissing env tokens name := by
  induction h with
  | nil =>
    rw [expand_nil]
    refine iff_of_false nofun ?_
    rintro ⟨name, -, front, token, behind, heq, -⟩
    cases front <;> cases heq
  | cons fits cut ih =>
    rename_i token tokens rest
    rw [expand_text_append fits]
    simp only [firstMissing_cons_iff]
    cases hsub : token.substitute env with
    | ok part =>
      have hnone : ∀ other, ¬ token.Misses env other := by
        intro other hmisses
        rw [substitute_eq_error_iff.mpr ⟨other, rfl, hmisses⟩] at hsub
        cases hsub
      have hrest : Except.map (part ++ ·) (env.expand rest) = .error e ↔
          env.expand rest = .error e := by
        cases env.expand rest <;> simp [Except.map]
      simp only [Except.bind, hrest, ih, hnone, false_or, not_false_iff, implies_true, true_and]
    | error found =>
      obtain ⟨name, rfl, hmisses⟩ := substitute_eq_error_iff.mp hsub
      constructor
      · rintro ⟨⟩
        exact ⟨name, rfl, .inl hmisses⟩
      · rintro ⟨other, rfl, hother | ⟨hnone, -⟩⟩
        · rw [substitute_eq_error_iff.mpr ⟨other, rfl, hother⟩] at hsub
          rw [← hsub]
          rfl
        · exact absurd hmisses (hnone name)

theorem expand_eq_ok_iff (h : Cut tokens t) : env.expand t = .ok s ↔
    ∃ parts, List.Forall₂ (Yields env) tokens parts ∧ s = parts.flatten := by
  induction h generalizing s with
  | nil => simp [expand_nil, eq_comm]
  | cons fits cut ih =>
    rename_i token tokens rest
    rw [expand_text_append fits]
    constructor
    · intro h
      cases hsub : token.substitute env with
      | error found =>
        rw [hsub] at h
        cases h
      | ok part =>
        cases hrest : env.expand rest with
        | error found =>
          rw [hsub, hrest] at h
          cases h
        | ok behind =>
          obtain ⟨parts, hparts, rfl⟩ := ih.mp hrest
          rw [hsub, hrest] at h
          obtain rfl := Except.ok.inj h
          exact ⟨part :: parts, .cons (substitute_eq_ok_iff.mp hsub) hparts, rfl⟩
    · rintro ⟨_, hparts, rfl⟩
      obtain _ | ⟨hpart, hbehind⟩ := hparts
      rw [substitute_eq_ok_iff.mpr hpart, ih.mpr ⟨_, hbehind, rfl⟩]
      rfl

/-- Expansion is a substitution in one pass, whatever is set. -/
theorem substitutionLaw_expand (env : Environment) (t : Text) : env.SubstitutionLaw t where
  cut := existsUnique_cut t
  error_iff := fun _ hcut _ => expand_eq_error_iff hcut
  ok_iff := fun _ hcut _ => expand_eq_ok_iff hcut
  unchanged := by
    intro h
    have hrun : env.expand (t ++ []) = (env.expand []).map (t ++ ·) := expand_run h []
    simpa [expand_nil, Except.map] using hrun

/-- What a variable holds is not searched for references, and neither is a default; a brace that is
not closed reaches to the end. -/
theorem substitutionLaw_expand_unsearched :
    let env : Environment := fun name => if name = ['A'] then some ['$', 'B'] else none
    let tokens := [.named ['A'], .lone, .braced ['B', ':', '-', '$', 'A', ':', '-'] true,
      .run ['}'], .braced ['A'] false]
    let t := ['$', 'A', '$', '$', '{', 'B', ':', '-', '$', 'A', ':', '-', '}', '}', '$', '{', 'A']
    Cut tokens t ∧ env.expand t = .ok ['$', 'B', '$', '$', 'A', ':', '-', '}', '$', 'B'] := by
  intro env tokens t
  have hcut : Cut tokens t := by
    refine .cons ?_ (.cons ?_ (.cons ?_ (.cons ?_ (.cons ?_ .nil))))
    all_goals decide +kernel
  refine ⟨hcut, ((substitutionLaw_expand env t).ok_iff tokens hcut _).mpr ?_⟩
  have hset : (named ['A']).Yields env ['$', 'B'] := .value (.named _) rfl
  have hbraced : (braced ['B', ':', '-', '$', 'A', ':', '-'] true).RefersTo ['B']
      (some ['$', 'A', ':', '-']) :=
    refersTo_braced_iff.mpr (by decide)
  have hopen : (braced ['A'] false).RefersTo ['A'] none := .braced false (by decide)
  exact ⟨[['$', 'B'], ['$'], ['$', 'A', ':', '-'], ['}'], ['$', 'B']],
    .cons hset (.cons .lone (.cons (.default hbraced rfl) (.cons (.run _)
      (.cons (.value hopen rfl) .nil)))), rfl⟩

end Environment

end PromqlAssist
