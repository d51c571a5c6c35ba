import Mathlib.Data.List.Forall2
import Mathlib.Tactic.Common
import Cascade.Proofs.Places
import Cascade.Proofs.Runs

/-!
# Two runs side by side

A step is run twice, from two places and with the same variables declared.  As long as both runs
pass like tokens and stop in front of like tokens, neither can tell that it is not the other one.
What it takes for tokens to be alike is left open: they may be the same, or differ in where they
stand.

A statement that ends in front of an end mark has looked at this mark only to see that neither a
fallback nor another branch follows, so for the steps that end a statement the end mark may be
replaced by nearly any other token.

## Main definitions

* `Likeness` : what tokens have in common that are not to be told apart.
* `Likeness.Along` : two pairs of places with like tokens in between.
* `Likeness.Meets` : what two runs may stop in front of.
* `Likeness.Matches` : an outcome is the like of another one.
* `Parse.Mirrors` : a step does the like of another one.
* `Parse.Closes` : a step that ends a statement does so whatever replaces an end mark.

## Main results

* `Likeness.Along.exists_of_isAt` : a place has its like in a row of like tokens.
* `Parse.Mirrors.bind` : sequences are mirrored part by part.
* `Parse.Closes.bind`, `Parse.Mirrors.closes` : what may follow and what may come before a step that
  ends a statement.
-/

namespace Cascade

/-- What tokens have in common that are not to be told apart, and with them the positions at which
faults are reported. -/
structure Likeness where
  /-- Tokens that are alike. -/
  token : Token → Token → Prop
  /-- Positions that are alike. -/
  position : Position → Position → Prop
  token_refl : ∀ x, token x x
  position_refl : ∀ q, position q q
  kind_eq : ∀ {x y}, token x y → x.kind = y.kind
  value_eq : ∀ {x y}, token x y → x.value = y.value
  start : ∀ {x y}, token x y → position x.span.start y.span.start

namespace Likeness

/-- Only equal tokens are alike. -/
def same : Likeness where
  token := Eq
  position := Eq
  token_refl _ := rfl
  position_refl _ := rfl
  kind_eq h := congrArg Token.kind h
  value_eq h := congrArg Token.value h
  start h := congrArg (fun t => t.span.start) h

/-- Tokens are alike that are written alike, wherever they stand. -/
def written : Likeness where
  token x y := x.kind = y.kind ∧ x.value = y.value
  position _ _ := True
  token_refl _ := ⟨rfl, rfl⟩
  position_refl _ := trivial
  kind_eq h := h.1
  value_eq h := h.2
  start _ := trivial

variable (κ : Likeness)

instance : Std.Refl κ.token := ⟨κ.token_refl⟩

instance : Std.Refl κ.position := ⟨κ.position_refl⟩

/-- Whether like tokens stand between two places and between two others. -/
def Along (c d c' d' : Cursor) : Prop :=
  ∃ read read', c.Spans read d ∧ c'.Spans read' d' ∧ List.Forall₂ κ.token read read'

/-- Whether two runs may stop in front of two tokens.  If the runs are loose, an end mark may be
replaced by any token that does not carry on a statement. -/
def Meets (loose : Prop) (x y : Token) : Prop :=
  κ.token x y ∨ loose ∧ x.kind = .eof ∧ y.kind ≠ .kwElse ∧ y.kind ≠ .kwOr

/-- Whether two results are alike: both are values of which the given relation holds, or both are
the same fault at like positions. -/
inductive Alike {α : Type} (V : α → α → Prop) : Except Failure α → Except Failure α → Prop
  | ok {a b : α} (h : V a b) : Alike V (.ok a) (.ok b)
  | fault {fault : Fault} {q q' : Position} (h : κ.position q q') :
      Alike V (.error (.fault ⟨fault, q⟩)) (.error (.fault ⟨fault, q'⟩))

/-- Whether an outcome is the like of another one and stops at the given place.  If one of them has
run out of calls or rounds, nothing is asked for. -/
def Matches {α : Type} (V : α → α → Prop) (o o' : Outcome α) (d' : Cursor) : Prop :=
  o.result = .error .exhausted ∨ o'.result = .error .exhausted ∨
    κ.Alike V o.result o'.result ∧ o'.state = ⟨d', o.state.symbols⟩

variable {κ} {c d e c' e' : Cursor}

/-- Results that are alike in every respect are the same. -/
theorem Alike.eq_of_same {α : Type} {r r' : Except Failure α} (h : same.Alike Eq r r') :
    r' = r := by
  cases h with
  | ok hvalue => rw [hvalue]
  | @fault _ q q' hposition =>
    have hq : q = q' := hposition
    rw [hq]

theorem exists_of_forall₂_append {first second tokens : List Token}
    (h : List.Forall₂ κ.token (first ++ second) tokens) :
    ∃ first' second', tokens = first' ++ second' ∧ List.Forall₂ κ.token first first' ∧
      List.Forall₂ κ.token second second' := by
  have hfirst := List.forall₂_take first.length h
  have hsecond := List.forall₂_drop first.length h
  rw [List.take_left] at hfirst
  rw [List.drop_left] at hsecond
  exact ⟨_, _, (List.take_append_drop first.length tokens).symm, hfirst, hsecond⟩

/-- Between two places that are the same there is nothing to pass. -/
theorem Along.eq_of_stays (h : κ.Along c c c' e') : e' = c' := by
  obtain ⟨read, read', hread, hread', hlike⟩ := h
  obtain rfl := hread.tokens_eq (Cursor.spans_nil.2 rfl)
  obtain rfl := List.forall₂_nil_left_iff.1 hlike
  exact Cursor.spans_nil.1 hread'

/-- Where one run passes a token, the other one passes a like token. -/
theorem Along.of_advance (h : κ.Along c c.advance c' e') (heof : c.here.kind ≠ .eof) :
    κ.token c.here c'.here ∧ e' = c'.advance := by
  obtain ⟨read, read', hread, hread', hlike⟩ := h
  obtain rfl := hread.tokens_eq ((Cursor.spans_singleton heof).2 ⟨rfl, rfl⟩)
  obtain ⟨token, _, htoken, hnil, rfl⟩ := List.forall₂_cons_left_iff.1 hlike
  obtain rfl := List.forall₂_nil_left_iff.1 hnil
  have heof' : token.kind ≠ .eof := κ.kind_eq htoken ▸ heof
  obtain ⟨rfl, rfl⟩ := (Cursor.spans_singleton heof').1 hread'
  exact ⟨htoken, rfl⟩

/-- Two pairs of places begin in front of like tokens, unless nothing is in between. -/
theorem Along.here (h : κ.Along c e c' e') : κ.token c.here c'.here ∨ c = e ∧ c' = e' := by
  obtain ⟨read, read', hread, hread', hlike⟩ := h
  cases hlike with
  | nil => exact .inr ⟨(Cursor.spans_nil.1 hread).symm, (Cursor.spans_nil.1 hread').symm⟩
  | cons htoken _ =>
    obtain ⟨rfl, -⟩ := List.cons.inj hread
    obtain ⟨rfl, -⟩ := List.cons.inj hread'
    exact .inl htoken

/-- What two runs may stop in front of, they may stop in front of earlier, if they are loose there
whenever nothing is in between. -/
theorem Along.meets {loose loose' : Prop} (h : κ.Along c e c' e')
    (hmeets : κ.Meets loose e.here e'.here)
    (hloose : c = e → loose → e.here.kind = .eof → loose') : κ.Meets loose' c.here c'.here := by
  rcases h.here with htoken | ⟨rfl, rfl⟩
  · exact .inl htoken
  · rcases hmeets with htoken | ⟨hl, heof, hnext⟩
    · exact .inl htoken
    · exact .inr ⟨hloose rfl hl heof, heof, hnext⟩

/-- A place in between has its like. -/
theorem Along.split (h : κ.Along c e c' e') (hcd : c.Reaches d) (hde : d.Reaches e) :
    ∃ d', κ.Along c d c' d' ∧ κ.Along d e d' e' := by
  obtain ⟨read, read', hread, hread', hlike⟩ := h
  obtain ⟨first, hfirst, -⟩ := hcd
  obtain ⟨second, hsecond, -⟩ := hde
  obtain rfl := hread.tokens_eq (hfirst.trans hsecond)
  obtain ⟨first', second', rfl, hlike₁, hlike₂⟩ := exists_of_forall₂_append hlike
  obtain ⟨d', hd', he'⟩ := Cursor.exists_of_spans_append hread'
  exact ⟨d', ⟨_, _, hfirst, hd', hlike₁⟩, ⟨_, _, hsecond, he', hlike₂⟩⟩

/-- Where two rows of tokens are alike up to an index, a place at this index has its like. -/
theorem Along.exists_of_isAt {row row' : List Token} {i k : Nat} (hc : c.IsAt row i)
    (hc' : c'.IsAt row' i) (hreaches : c.Reaches e) (he : e.IsAt row k)
    (hlike : List.Forall₂ κ.token (row.take (k + 1)) (row'.take (k + 1))) :
    ∃ e', κ.Along c e c' e' ∧ κ.token e.here e'.here ∧ e'.IsAt row' k := by
  obtain ⟨read, hread, -⟩ := hreaches
  obtain rfl := he.unique (hc.spans hread)
  have hlike := List.forall₂_drop i hlike
  rw [List.drop_take, List.drop_take, ← hc, ← hc', hread, Nat.add_assoc, Nat.add_sub_cancel_left,
    Cursor.remaining, List.take_length_add_append, List.take_succ_cons, List.take_zero] at hlike
  obtain ⟨read', last, htake, hbetween, hlast⟩ := exists_of_forall₂_append hlike
  obtain ⟨next, _, hnext, hnil, rfl⟩ := List.forall₂_cons_left_iff.1 hlast
  obtain rfl := List.forall₂_nil_left_iff.1 hnil
  have hrest := List.take_append_drop (read.length + 1) c'.remaining
  rw [htake, List.append_assoc] at hrest
  obtain ⟨e', he'⟩ := Cursor.exists_remaining hrest.symm
  have hspans : c'.Spans read' e' := by
    rw [Cursor.Spans, he']
    exact hrest.symm
  obtain ⟨rfl, -⟩ := List.cons.inj he'
  refine ⟨e', ⟨read, read', hread, hspans, hbetween⟩, hnext, ?_⟩
  rw [hbetween.length_eq]
  exact hc'.spans hspans

end Likeness

namespace Parse

variable {α β : Type} {κ : Likeness} {loose : Prop}

/-! ### Steps that are mirrored -/

/-- Whether a step moves forward only, and over no end mark. -/
def Forward (p : Parse α) : Prop :=
  ∀ s : State, s.cursor.Reaches (p.run s).state.cursor

theorem Forward.bind {p : Parse α} {f : α → Parse β} (hp : p.Forward)
    (hf : ∀ a, (f a).Forward) : (p >>= f).Forward := by
  intro s
  cases hresult : (p.run s).result with
  | error failure =>
    rw [run_bind_of_error hresult]
    exact hp s
  | ok a =>
    rw [run_bind_of_ok hresult]
    exact (hp s).trans (hf a _)

/-- Whether a step does the like of another one, with values of which the given relation holds.  If
the steps are loose, those that succeed may stop in front of an end mark and of what replaces it. -/
structure Mirrors (κ : Likeness) (loose : Prop) (V : α → α → Prop) (p q : Parse α) : Prop where
  forward : p.Forward
  /-- Over like tokens the other step gives the like and stops at the like place. -/
  mirror : ∀ (s : State) c' d', κ.Along s.cursor (p.run s).state.cursor c' d' →
    κ.Meets (loose ∧ ∃ a, (p.run s).result = .ok a) (p.run s).state.cursor.here d'.here →
    κ.Matches V (p.run s) (q.run ⟨c', s.symbols⟩) d'

/-- Whether a step does not succeed in front of an end mark. -/
def NeedsToken (p : Parse α) : Prop :=
  ∀ s a t, p.Gives s a t → s.cursor.here.kind ≠ .eof

/-- A step that needs a token begins in front of the like of its first token. -/
theorem NeedsToken.token_here {p : Parse α} (hp : NeedsToken p) {s : State} {c' d' : Cursor}
    (halong : κ.Along s.cursor (p.run s).state.cursor c' d')
    (hmeets : κ.Meets (loose ∧ ∃ a, (p.run s).result = .ok a) (p.run s).state.cursor.here d'.here) :
    κ.token s.cursor.here c'.here := by
  have hstart : κ.Meets False s.cursor.here c'.here := by
    refine halong.meets hmeets fun hs hl heof => ?_
    obtain ⟨-, a, ha⟩ := hl
    exact hp s a _ ⟨ha, rfl⟩ (hs ▸ heof)
  exact hstart.resolve_right fun h => h.1

/-- Whether a step that needs a token does the like of another one, whatever replaces an end mark
that it stops in front of. -/
structure Closes (κ : Likeness) (V : α → α → Prop) (p q : Parse α) : Prop where
  mirrors : Mirrors κ True V p q
  needsToken : NeedsToken p

variable {V : α → α → Prop} {W : β → β → Prop} {p q : Parse α} {f g : α → Parse β}

/-- What holds whatever replaces an end mark holds if nothing does. -/
theorem Mirrors.strict (h : Mirrors κ loose V p q) : Mirrors κ False V p q :=
  ⟨h.forward, fun s c' d' halong hmeets =>
    h.mirror s c' d' halong (hmeets.imp_right fun hloose => hloose.1.1.elim)⟩

/-- A step that runs out of calls or rounds is the like of any. -/
theorem Mirrors.exhausted (h : Mirrors κ loose V p q) : Mirrors κ loose V p exhausted :=
  ⟨h.forward, fun _ _ _ _ _ => .inr (.inl rfl)⟩

/-- A sequence whose first part fails is mirrored. -/
theorem Mirrors.mirror_of_error {loose' : Prop} (hp : Mirrors κ loose' V p q) {s : State}
    {failure : Failure} (hresult : (p.run s).result = .error failure) {c' d' : Cursor}
    (halong : κ.Along s.cursor (p.run s).state.cursor c' d')
    (htoken : κ.token (p.run s).state.cursor.here d'.here) :
    κ.Matches W ((p >>= f).run s) ((q >>= g).run ⟨c', s.symbols⟩) d' := by
  rw [run_bind_of_error hresult]
  rcases hp.mirror s c' d' halong (.inl htoken) with hcut | hcut | ⟨halike, hstate⟩
  · rw [hresult] at hcut
    cases hcut
    exact .inl rfl
  · exact .inr (.inl (by rw [run_bind_of_error hcut]))
  · rw [hresult] at halike
    generalize hresult' : (q.run ⟨c', s.symbols⟩).result = result' at halike
    cases halike with
    | fault hposition =>
      rw [run_bind_of_error hresult']
      exact .inr (.inr ⟨.fault hposition, hstate⟩)

/-- Sequences are mirrored part by part.  Where the first part is mirrored strictly only, the second
part has to need a token. -/
theorem Mirrors.bind_of [Std.Refl V] {loose' : Prop} (hp : Mirrors κ loose' V p q)
    (hf : ∀ a b, V a b → Mirrors κ loose W (f a) (g b))
    (hloose : loose → loose' ∨ ∀ a, NeedsToken (f a)) : Mirrors κ loose W (p >>= f) (q >>= g) := by
  have hforward : ∀ a, (f a).Forward := fun a => (hf a a (Std.Refl.refl a)).forward
  refine ⟨hp.forward.bind hforward, fun s c' d' halong hmeets => ?_⟩
  cases hresult : (p.run s).result with
  | error failure =>
    rw [run_bind_of_error hresult] at halong hmeets
    exact hp.mirror_of_error hresult halong (hmeets.resolve_right fun h => by simp at h)
  | ok a =>
    rw [run_bind_of_ok hresult] at halong hmeets ⊢
    obtain ⟨u', halong₁, halong₂⟩ := halong.split (hp.forward s) (hforward a _)
    have hmeets₁ : κ.Meets (loose' ∧ ∃ a, (p.run s).result = .ok a)
        (p.run s).state.cursor.here u'.here := by
      refine halong₂.meets hmeets fun hu hl heof => ?_
      -- The second part has stayed where it was, so it looked at the same token.
      obtain ⟨hl, b, hb⟩ := hl
      rcases hloose hl with hl' | hneeds
      · exact ⟨hl', a, hresult⟩
      · exact absurd (hu ▸ heof) (hneeds a _ b _ ⟨hb, rfl⟩)
    rcases hp.mirror s c' u' halong₁ hmeets₁ with hcut | hcut | ⟨halike, hstate⟩
    · rw [hresult] at hcut
      cases hcut
    · exact .inr (.inl (by rw [run_bind_of_error hcut]))
    · rw [hresult] at halike
      generalize hresult' : (q.run ⟨c', s.symbols⟩).result = result' at halike
      cases halike with
      | ok hab =>
        rw [run_bind_of_ok hresult', hstate]
        exact (hf _ _ hab).mirror _ u' d' halong₂ hmeets

theorem Mirrors.bind [Std.Refl V] (hp : Mirrors κ loose V p q)
    (hf : ∀ a b, V a b → Mirrors κ loose W (f a) (g b)) : Mirrors κ loose W (p >>= f) (q >>= g) :=
  hp.bind_of hf .inl

/-- What closes a statement may be followed by what does not look at a token any more. -/
theorem Closes.bind [Std.Refl V] (hp : Closes κ V p q)
    (hf : ∀ a b, V a b → Mirrors κ True W (f a) (g b)) : Closes κ W (p >>= f) (q >>= g) := by
  refine ⟨hp.mirrors.bind hf, fun s b t h => ?_⟩
  obtain ⟨a, u, hfirst, -⟩ := gives_bind.1 h
  exact hp.needsToken s a u hfirst

/-- What is mirrored strictly may come before what closes a statement. -/
theorem Mirrors.closes [Std.Refl V] (hp : Mirrors κ False V p q)
    (hf : ∀ a b, V a b → Closes κ W (f a) (g b)) : Closes κ W (p >>= f) (q >>= g) := by
  have hneeds : ∀ a, NeedsToken (f a) := fun a => (hf a a (Std.Refl.refl a)).needsToken
  refine ⟨hp.bind_of (fun a b hab => (hf a b hab).mirrors) fun _ => .inr hneeds, ?_⟩
  intro s b t h heof
  obtain ⟨a, u, ⟨-, rfl⟩, hsecond⟩ := gives_bind.1 h
  refine hneeds a _ b t hsecond ?_
  rw [(hp.forward s).eq_of_eof heof]
  exact heof

/-! Most values are the same in both runs. -/

theorem Mirrors.andThen (hp : Mirrors κ loose Eq p q)
    (hf : ∀ a, Mirrors κ loose W (f a) (g a)) : Mirrors κ loose W (p >>= f) (q >>= g) :=
  hp.bind fun a _ hab => hab ▸ hf a

theorem Closes.andThen (hp : Closes κ Eq p q) (hf : ∀ a, Mirrors κ True W (f a) (g a)) :
    Closes κ W (p >>= f) (q >>= g) :=
  hp.bind fun a _ hab => hab ▸ hf a

theorem Mirrors.thenCloses (hp : Mirrors κ False Eq p q) (hf : ∀ a, Closes κ W (f a) (g a)) :
    Closes κ W (p >>= f) (q >>= g) :=
  hp.closes fun a _ hab => hab ▸ hf a

/-! ### Primitive steps -/

/-- A step that stays where it is, whatever token it looks at. -/
theorem mirrors_of_stays (hcursor : ∀ s, (p.run s).state.cursor = s.cursor)
    (h : ∀ (s : State) c', κ.Meets (loose ∧ ∃ a, (p.run s).result = .ok a) s.cursor.here c'.here →
      κ.Alike V (p.run s).result (q.run ⟨c', s.symbols⟩).result ∧
        (q.run ⟨c', s.symbols⟩).state = ⟨c', (p.run s).state.symbols⟩) : Mirrors κ loose V p q := by
  refine ⟨fun s => by rw [hcursor]; exact .refl _, fun s c' d' halong hmeets => .inr (.inr ?_)⟩
  rw [hcursor] at halong hmeets
  obtain rfl := halong.eq_of_stays
  exact h s d' hmeets

theorem mirrors_pure {a b : α} (h : V a b) : Mirrors κ loose V (pure a) (pure b) :=
  mirrors_of_stays (fun _ => rfl) fun _ _ _ => ⟨.ok h, rfl⟩

theorem mirrors_current : Mirrors κ False κ.token current current :=
  mirrors_of_stays (fun _ => rfl) fun _ _ hmeets =>
    ⟨.ok (hmeets.resolve_right fun h => h.1.1), rfl⟩

theorem mirrors_kind : Mirrors κ False Eq kind kind :=
  mirrors_current.bind fun _ _ h => mirrors_pure (κ.kind_eq h)

theorem mirrors_position : Mirrors κ False κ.position position position :=
  mirrors_current.bind fun _ _ h => mirrors_pure (κ.start h)

theorem mirrors_tell (event event' : Event) : Mirrors κ loose Eq (tell event) (tell event') :=
  mirrors_of_stays (fun _ => rfl) fun _ _ _ => ⟨.ok rfl, rfl⟩

theorem mirrors_declare (name : String) (type : ValueType) :
    Mirrors κ loose Eq (declare name type) (declare name type) :=
  mirrors_of_stays (fun _ => rfl) fun _ _ _ => ⟨.ok rfl, rfl⟩

theorem mirrors_symbols : Mirrors κ loose Eq symbols symbols :=
  mirrors_of_stays (fun _ => rfl) fun _ _ _ => ⟨.ok rfl, rfl⟩

theorem mirrors_settle {q q' : Position} (hq : κ.position q q') (result : Except Fault α)
    (events events' : List Event) :
    Mirrors κ loose Eq (settle q result events) (settle q' result events') := by
  refine mirrors_of_stays (fun _ => rfl) fun s c' _ => ⟨?_, rfl⟩
  cases result with
  | error fault => exact .fault hq
  | ok a => exact .ok rfl

theorem mirrors_fold (e : Expr) : Mirrors κ False Eq (fold e) (fold e) :=
  mirrors_position.bind fun _ _ h => mirrors_settle h _ _ _

theorem mirrors_checkValue {q q' : Position} (hq : κ.position q q') (type : ValueType)
    (value : Expr) : Mirrors κ loose Eq (checkValue q type value) (checkValue q' type value) :=
  mirrors_symbols.bind fun _ _ h => h ▸ mirrors_settle hq _ _ _

theorem mirrors_checkAssignment {q q' : Position} (hq : κ.position q q') (name : String)
    (value : Expr) :
    Mirrors κ loose Eq (checkAssignment q name value) (checkAssignment q' name value) :=
  mirrors_symbols.bind fun _ _ h => h ▸ mirrors_settle hq _ _ _

/-- A step that fails at the current token never gives anything. -/
theorem closes_fail (fault : Fault) : Closes κ V (fail fault) (fail fault) := by
  refine ⟨mirrors_of_stays (fun _ => rfl) fun s c' hmeets => ⟨.fault ?_, rfl⟩, ?_⟩
  · exact κ.start (hmeets.resolve_right fun h => by simp at h)
  · exact fun s a t h => absurd h not_gives_fail

theorem closes_exhausted (q : Parse α) : Closes κ V exhausted q :=
  ⟨⟨fun _ => .refl _, fun _ _ _ _ _ => .inl rfl⟩, fun _ _ _ h => absurd h not_gives_exhausted⟩

theorem mirrors_advance : Mirrors κ False κ.token advance advance := by
  refine ⟨fun s => s.cursor.reaches_advance, fun s c' d' halong hmeets => .inr (.inr ?_)⟩
  have hmeets' : κ.token s.cursor.advance.here d'.here := hmeets.resolve_right fun h => h.1.1
  by_cases heof : s.cursor.here.kind = .eof
  · have hstays := Cursor.advance_of_eof heof
    change κ.Along s.cursor s.cursor.advance c' d' at halong
    rw [hstays] at halong hmeets'
    obtain rfl := halong.eq_of_stays
    refine ⟨.ok hmeets', ?_⟩
    rw [run_advance, Cursor.advance_of_eof (κ.kind_eq hmeets' ▸ heof)]
    rfl
  · obtain ⟨htoken, rfl⟩ := halong.of_advance heof
    exact ⟨.ok htoken, rfl⟩

/-- A step that passes the current token or stays in front of it, and does not succeed in front of
an end mark. -/
theorem closes_of_current (h : ∀ s s' : State, κ.token s.cursor.here s'.cursor.here →
    κ.Alike V (p.run s).result (q.run s').result ∧
      (s.cursor.here.kind ≠ .eof ∧ (p.run s).state = s.advance ∧ (q.run s').state = s'.advance ∨
        (s.cursor.here.kind = .eof → ∀ a, (p.run s).result ≠ .ok a) ∧ (p.run s).state = s ∧
          (q.run s').state = s')) : Closes κ V p q := by
  have hneeds : NeedsToken p := by
    rintro s a t ⟨hresult, -⟩ heof
    rcases (h s s (κ.token_refl _)).2 with ⟨hne, -⟩ | ⟨hfails, -⟩
    · exact hne heof
    · exact hfails heof a hresult
  refine ⟨⟨fun s => ?_, fun s c' d' halong hmeets => .inr (.inr ?_)⟩, hneeds⟩
  · rcases (h s s (κ.token_refl _)).2 with ⟨-, hstate, -⟩ | ⟨-, hstate, -⟩
    · rw [hstate]
      exact s.cursor.reaches_advance
    · rw [hstate]
      exact .refl _
  · obtain ⟨halike, hstate⟩ := h s ⟨c', s.symbols⟩ (hneeds.token_here halong hmeets)
    refine ⟨halike, ?_⟩
    rcases hstate with ⟨heof, hs, hs'⟩ | ⟨-, hs, hs'⟩
    · rw [hs] at halong ⊢
      obtain ⟨-, rfl⟩ := halong.of_advance heof
      exact hs'
    · rw [hs] at halong ⊢
      obtain rfl := halong.eq_of_stays
      exact hs'

theorem closes_expect {expected : TokenKind} (hexpected : expected ≠ .eof) (description : String) :
    Closes κ κ.token (expect expected description) (expect expected description) := by
  refine closes_of_current fun s s' htoken => ?_
  rw [run_expect, run_expect, ← κ.kind_eq htoken, ← κ.value_eq htoken]
  split
  · rename_i hkind
    exact ⟨.ok htoken, .inl ⟨ne_of_eq_of_ne hkind hexpected, rfl, rfl⟩⟩
  · exact ⟨.fault (κ.start htoken), .inr ⟨fun _ _ => nofun, rfl, rfl⟩⟩

theorem run_terminator (s : State) :
    terminator.run s =
      if s.cursor.here.kind = .semicolon then ⟨.ok (), s.advance, []⟩
      else if s.cursor.here.kind ≠ .closeParen then
        ⟨.error (.fault ⟨.syntaxError "semicolon" s.cursor.here.value,
          s.cursor.here.span.start⟩), s, []⟩
      else ⟨.ok (), s, []⟩ := by
  rw [terminator, run_bind_of_ok (congrArg Outcome.result (run_current s)), run_current]
  split
  · rfl
  · split <;> rfl

theorem closes_terminator : Closes κ Eq terminator terminator := by
  refine closes_of_current fun s s' htoken => ?_
  rw [run_terminator, run_terminator, ← κ.kind_eq htoken, ← κ.value_eq htoken]
  split
  · rename_i hsemicolon
    exact ⟨.ok rfl, .inl ⟨ne_of_eq_of_ne hsemicolon (by decide), rfl, rfl⟩⟩
  · split
    · exact ⟨.fault (κ.start htoken), .inr ⟨fun _ _ => nofun, rfl, rfl⟩⟩
    · rename_i hclose
      refine ⟨.ok rfl, .inr ⟨fun heof => absurd heof ?_, rfl, rfl⟩⟩
      rw [not_not.1 hclose]
      decide

end Parse

end Cascade
