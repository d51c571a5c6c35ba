import Cascade.Proofs.Sessions

/-!
# What a grammar remembers of its edits

A grammar keeps one rule for each production and one row of candidates for the start, while the
edits that it was built by may come in any order and any number.  What it keeps is told here by the
history of the edits alone: the rule of a production is the one that was registered last, the
candidates are the productions whose last edit made them one, and they stand in the order of these
edits.  A dialect that has an edit for every production therefore leaves nothing of what was there
before.

## Main definitions

* `Edit.LastRule` : a rule is the last one that a history registers for a production.
* `Edit.CandidateAt` : the last edit about a production makes it a candidate for the start.
* `Grammar.after`, `Grammar.build` : the grammar that some edits lead to.
* `Grammar.Remembers` : what a grammar tells of the edits that it was built by.
* `Session.history` : the edits that some operations of a session perform.

## Main results

* `Grammar.rule?_after`, `Grammar.roots_after` : what edits leave of a grammar.
* `Grammar.remembers_build` : a grammar tells of its edits what `Grammar.Remembers` says.
* `Grammar.load_full` : the full dialect leaves nothing of what was there before.
* `Session.grammar_of_history` : the grammar of a session at any point of a run.
-/

namespace Cascade

/-! ### Histories -/

namespace Edit

/-- The production that an edit is about. -/
def production : Edit → Production
  | register p _ _ => p
  | demote p => p

/-- The production that an edit makes a candidate for the start. -/
def candidate? : Edit → Option Production
  | register p _ true => some p
  | _ => none

/-- Whether a rule is the last one that a history registers for a production. -/
def LastRule (history : List Edit) (p : Production) (rule : Rule) : Prop :=
  ∃ earlier root later, history = earlier ++ register p rule root :: later ∧
    ∀ rule' root', register p rule' root' ∉ later

/-- Whether the last edit of a history that is about a production makes it a candidate for the
start, with the given number of edits behind it. -/
def CandidateAt (history : List Edit) (p : Production) (n : Nat) : Prop :=
  ∃ earlier rule later, history = earlier ++ register p rule true :: later ∧
    (∀ e ∈ later, e.production ≠ p) ∧ later.length = n

variable {history : List Edit} {e : Edit} {p : Production} {rule : Rule} {m n : Nat}

theorem candidate?_eq_some_iff : e.candidate? = some p ↔ ∃ rule, e = register p rule true := by
  constructor
  · intro h
    unfold candidate? at h
    split at h
    · cases h
      exact ⟨_, rfl⟩
    · cases h
  · rintro ⟨rule, rfl⟩
    rfl

/-- The first edit of a history decides about a rule if no other one is registered later. -/
theorem lastRule_cons :
    LastRule (e :: history) p rule ↔
      LastRule history p rule ∨
        (∃ root, e = register p rule root) ∧ ∀ rule' root', register p rule' root' ∉ history := by
  constructor
  · rintro ⟨earlier, root, later, h, hlater⟩
    cases earlier with
    | nil =>
      obtain ⟨rfl, rfl⟩ := List.cons.inj h
      exact .inr ⟨⟨root, rfl⟩, hlater⟩
    | cons first earlier =>
      obtain ⟨rfl, rfl⟩ := List.cons.inj h
      exact .inl ⟨earlier, root, later, rfl, hlater⟩
  · rintro (⟨earlier, root, later, rfl, hlater⟩ | ⟨⟨root, rfl⟩, hlater⟩)
    · exact ⟨e :: earlier, root, later, rfl, hlater⟩
    · exact ⟨[], root, history, rfl, hlater⟩

/-- The first edit of a history decides about a candidate if no later one is about it. -/
theorem candidateAt_cons :
    CandidateAt (e :: history) p n ↔
      CandidateAt history p n ∨
        e.candidate? = some p ∧ (∀ e' ∈ history, e'.production ≠ p) ∧ history.length = n := by
  constructor
  · rintro ⟨earlier, rule, later, h, hlater⟩
    cases earlier with
    | nil =>
      obtain ⟨rfl, rfl⟩ := List.cons.inj h
      exact .inr ⟨rfl, hlater⟩
    | cons first earlier =>
      obtain ⟨rfl, rfl⟩ := List.cons.inj h
      exact .inl ⟨earlier, rule, later, rfl, hlater⟩
  · rintro (⟨earlier, rule, later, rfl, hlater⟩ | ⟨he, hlater⟩)
    · exact ⟨e :: earlier, rule, later, rfl, hlater⟩
    · obtain ⟨rule, rfl⟩ := candidate?_eq_some_iff.1 he
      exact ⟨[], rule, history, rfl, hlater⟩

/-- A candidate has an edit that is about it, and the edits behind it are fewer than all. -/
theorem CandidateAt.exists_mem (h : CandidateAt history p n) :
    (∃ e ∈ history, e.production = p) ∧ n < history.length := by
  obtain ⟨earlier, rule, later, rfl, -, rfl⟩ := h
  refine ⟨⟨register p rule true, by simp, rfl⟩, ?_⟩
  rw [List.length_append, List.length_cons]
  omega

/-- The last edit about a production has one place in the history. -/
theorem CandidateAt.unique (h : CandidateAt history p m) (h' : CandidateAt history p n) :
    m = n := by
  induction history with
  | nil => exact absurd h.exists_mem.2 (Nat.not_lt_zero _)
  | cons e history ih =>
    rcases candidateAt_cons.1 h with hm | ⟨-, hlater, rfl⟩ <;>
      rcases candidateAt_cons.1 h' with hn | ⟨-, hlater', rfl⟩
    · exact ih hm hn
    · obtain ⟨⟨e', hmem, hp⟩, -⟩ := hm.exists_mem
      exact absurd hp (hlater' e' hmem)
    · obtain ⟨⟨e', hmem, hp⟩, -⟩ := hn.exists_mem
      exact absurd hp (hlater e' hmem)
    · rfl

end Edit

/-! ### Edits of a grammar -/

attribute [ext] Grammar

namespace Grammar

open Edit

variable {history : List Edit} {p : Production} {rule : Rule}

/-- The grammar after some edits. -/
def after (g : Grammar) (edits : List Edit) : Grammar :=
  edits.foldl edit g

/-- The grammar that some edits build from nothing. -/
def build (edits : List Edit) : Grammar :=
  empty.after edits

theorem after_cons (g : Grammar) (e : Edit) (edits : List Edit) :
    g.after (e :: edits) = (g.edit e).after edits := rfl

theorem after_append (g : Grammar) (edits more : List Edit) :
    g.after (edits ++ more) = (g.after edits).after more :=
  List.foldl_append

/-- An edit takes its production out of the candidates, and puts it behind the others if it makes it
one. -/
theorem roots_edit (g : Grammar) (e : Edit) :
    (g.edit e).roots = g.roots.filter (· ≠ e.production) ++ e.candidate?.toList := by
  cases e with
  | register q rule root => cases root <;> rfl
  | demote q => exact (List.append_nil _).symm

/-- An edit has a rule for its own production, or it changes no rule. -/
theorem rule?_edit (g : Grammar) (e : Edit) (p : Production) :
    (g.edit e).rule? p = ((empty.edit e).rule? p).or (g.rule? p) := by
  cases e with
  | register q rule root =>
    change (if p = q then some rule else g.rule? p) =
      (if p = q then some rule else none).or (g.rule? p)
    split <;> rfl
  | demote q => rfl

/-- Edits keep the rules of a grammar that they do not replace. -/
theorem rule?_after (g : Grammar) (edits : List Edit) (p : Production) :
    (g.after edits).rule? p = ((build edits).rule? p).or (g.rule? p) := by
  induction edits generalizing g with
  | nil => rfl
  | cons e edits ih =>
    rw [build, after_cons, after_cons, ih, ih (empty.edit e), rule?_edit, Option.or_assoc]

/-- Edits keep the candidates of a grammar that they are not about, and put the new ones behind
them. -/
theorem roots_after (g : Grammar) (edits : List Edit) :
    (g.after edits).roots =
      g.roots.filter (fun p => edits.all fun e => p ≠ e.production) ++ (build edits).roots := by
  induction edits generalizing g with
  | nil => simp [after, build, empty]
  | cons e edits ih =>
    rw [build, after_cons, after_cons, ih, ih (empty.edit e), roots_edit, roots_edit,
      List.filter_append, List.filter_filter, List.append_assoc]
    simp [empty, Bool.and_comm]

/-- The first edit of a history leaves its candidate in front, unless a later edit is about it. -/
theorem roots_build_cons (e : Edit) (history : List Edit) :
    (build (e :: history)).roots =
      e.candidate?.toList.filter (fun p => history.all fun e' => p ≠ e'.production) ++
        (build history).roots := by
  rw [build, after_cons, roots_after, roots_edit]
  rfl

/-! ### What a grammar remembers -/

theorem rule?_empty_edit {e : Edit} :
    (empty.edit e).rule? p = some rule ↔ ∃ root, e = .register p rule root := by
  cases e with
  | register q other root =>
    change (if p = q then some other else none) = some rule ↔ _
    simp only [Option.ite_none_right_eq_some, Option.some.injEq, Edit.register.injEq]
    constructor
    · exact fun ⟨hp, hrule⟩ => ⟨root, hp.symm, hrule, rfl⟩
    · exact fun ⟨_, hp, hrule, _⟩ => ⟨hp.symm, hrule⟩
  | demote q => simp [edit]

/-- A production has no rule as long as none was registered for it. -/
theorem rule?_build_eq_none :
    (build history).rule? p = none ↔ ∀ rule root, .register p rule root ∉ history := by
  induction history with
  | nil => simp [build, after]
  | cons e history ih =>
    have hfirst : (empty.edit e).rule? p = none ↔ ∀ rule root, e ≠ .register p rule root := by
      simp only [Option.eq_none_iff_forall_ne_some, ne_eq, rule?_empty_edit, not_exists]
    rw [build, after_cons, rule?_after, Option.or_eq_none_iff, ih, hfirst]
    simp only [List.mem_cons, not_or, forall_and, ne_eq, eq_comm, and_comm]

theorem isRegistered_build :
    (build history).isRegistered p = true ↔ ∃ rule root, .register p rule root ∈ history := by
  have hnone := @rule?_build_eq_none history p
  rw [isRegistered, Option.isSome_iff_ne_none, ne_eq, hnone]
  simp only [not_forall, not_not]

/-- A production has the rule that was registered last. -/
theorem rule?_build : (build history).rule? p = some rule ↔ LastRule history p rule := by
  induction history with
  | nil => simp [build, after, LastRule]
  | cons e history ih =>
    rw [build, after_cons, rule?_after, Option.or_eq_some_iff, ih, rule?_build_eq_none,
      rule?_empty_edit, lastRule_cons, and_comm (a := ∃ root, e = .register p rule root)]

/-- The candidates are the productions whose last edit made them one. -/
theorem mem_roots_build : p ∈ (build history).roots ↔ ∃ n, CandidateAt history p n := by
  induction history with
  | nil => simp [build, after, empty, CandidateAt]
  | cons e history ih =>
    simp only [roots_build_cons, List.mem_append, List.mem_filter, Option.mem_toList, ih,
      candidateAt_cons, List.all_eq_true, decide_eq_true_eq, exists_or, exists_and_left,
      exists_eq', and_true, ne_comm (a := p)]
    exact or_comm

/-- The candidates stand in the order of their last edits. -/
theorem pairwise_roots_build :
    (build history).roots.Pairwise fun p q =>
      ∀ m n, CandidateAt history p m → CandidateAt history q n → n < m := by
  induction history with
  | nil => exact .nil
  | cons e history ih =>
    -- What is a candidate by a later edit is not one by the first edit.
    have hlater : ∀ q ∈ (build history).roots, ∀ n, CandidateAt (e :: history) q n →
        CandidateAt history q n := by
      intro q hq n hn
      obtain ⟨m, hm⟩ := mem_roots_build.1 hq
      obtain ⟨⟨e', hmem, he'⟩, -⟩ := hm.exists_mem
      exact (candidateAt_cons.1 hn).resolve_right fun ⟨_, hnone, _⟩ => hnone e' hmem he'
    rw [roots_build_cons, List.pairwise_append]
    refine ⟨?_, ?_, ?_⟩
    · refine List.Pairwise.sublist List.filter_sublist ?_
      cases e.candidate? with
      | none => exact .nil
      | some p => exact List.pairwise_singleton _ _
    · exact ih.imp_of_mem fun hp hq h m n hm hn => h m n (hlater _ hp m hm) (hlater _ hq n hn)
    · intro p hp q hq m n hm hn
      obtain ⟨hcandidate, hnone⟩ := List.mem_filter.1 hp
      simp only [List.all_eq_true, decide_eq_true_eq] at hnone
      have hfirst : CandidateAt (e :: history) p history.length :=
        candidateAt_cons.2 (.inr ⟨Option.mem_toList.1 hcandidate,
          fun e' he' => (hnone e' he').symm, rfl⟩)
      rw [hm.unique hfirst]
      exact (hlater q hq n hn).exists_mem.2

theorem nodup_roots_build : (build history).roots.Nodup := by
  refine pairwise_roots_build.imp_of_mem fun {p q} hp _ h => ?_
  rintro rfl
  obtain ⟨n, hn⟩ := mem_roots_build.1 hp
  exact absurd (h n n hn hn) (Nat.lt_irrefl n)

/-- A statement starts from the candidate whose last edit is the latest one. -/
theorem root?_build :
    (build history).root? = some p ↔
      ∃ n, CandidateAt history p n ∧ ∀ q m, CandidateAt history q m → n ≤ m := by
  have hpairwise := @pairwise_roots_build history
  rw [root?]
  rcases List.eq_nil_or_concat (build history).roots with hnil | ⟨front, last, hlast⟩
  · rw [hnil]
    simp only [List.getLast?_nil, reduceCtorEq, false_iff]
    rintro ⟨n, hn, -⟩
    have hmem := mem_roots_build.2 ⟨n, hn⟩
    rw [hnil] at hmem
    cases hmem
  · rw [List.concat_eq_append] at hlast
    rw [hlast, List.pairwise_append] at hpairwise
    rw [hlast, List.getLast?_concat, Option.some.injEq]
    obtain ⟨n, hn⟩ : ∃ n, CandidateAt history last n := mem_roots_build.1 (by simp [hlast])
    -- Every other candidate stands in front of the last one.
    have hfirst : ∀ q m, CandidateAt history q m → q = last ∨ n < m := by
      intro q m hm
      have hmem : q ∈ (build history).roots := mem_roots_build.2 ⟨m, hm⟩
      rw [hlast, List.mem_append, List.mem_singleton] at hmem
      rcases hmem with hmem | rfl
      · exact .inr (hpairwise.2.2 q hmem last (List.mem_singleton_self last) m n hm hn)
      · exact .inl rfl
    constructor
    · rintro rfl
      refine ⟨n, hn, fun q m hm => ?_⟩
      rcases hfirst q m hm with rfl | hlt
      · exact Nat.le_of_eq (hn.unique hm)
      · exact Nat.le_of_lt hlt
    · rintro ⟨m, hm, hleast⟩
      refine ((hfirst p m hm).resolve_right ?_).symm
      exact Nat.not_lt.2 (hleast last n hn)

/-- What a grammar tells of the edits that it was built by. -/
structure Remembers (g : Grammar) (history : List Edit) : Prop where
  /-- The productions with a rule are those that one was registered for. -/
  isRegistered : ∀ p, g.isRegistered p = true ↔ ∃ rule root, .register p rule root ∈ history
  /-- The rule of a production is the one that was registered last. -/
  rule? : ∀ p rule, g.rule? p = some rule ↔ LastRule history p rule
  /-- The candidates for the start are the productions whose last edit made them one. -/
  mem_roots : ∀ p, p ∈ g.roots ↔ ∃ n, CandidateAt history p n
  /-- No candidate is counted twice. -/
  nodup : g.roots.Nodup
  /-- The candidates stand in the order of their last edits. -/
  ordered : g.roots.Pairwise fun p q =>
    ∀ m n, CandidateAt history p m → CandidateAt history q n → n < m
  /-- A statement starts from the candidate whose last edit is the latest one. -/
  root? : ∀ p, g.root? = some p ↔
    ∃ n, CandidateAt history p n ∧ ∀ q m, CandidateAt history q m → n ≤ m

theorem remembers_build (history : List Edit) : (build history).Remembers history where
  isRegistered _ := isRegistered_build
  rule? _ _ := rule?_build
  mem_roots _ := mem_roots_build
  nodup := nodup_roots_build
  ordered := pairwise_roots_build
  root? _ := root?_build

/-- There is nothing to start from as long as no production is a candidate. -/
theorem Remembers.root?_eq_none {g : Grammar} (h : g.Remembers history) :
    g.root? = none ↔ ∀ p n, ¬CandidateAt history p n := by
  rw [Grammar.root?, List.getLast?_eq_none_iff, List.eq_nil_iff_forall_not_mem]
  exact forall_congr' fun p => by rw [h.mem_roots, not_exists]

/-! ### Dialects -/

theorem load_eq_after (g : Grammar) (d : Dialect) : g.load d = g.after d.edits := rfl

/-- The full dialect has an edit for every production. -/
theorem exists_mem_edits_full (p : Production) :
    ∃ e ∈ Dialect.full.edits, e.production = p := by
  have hall : ∀ p ∈ Production.all, p ∈ Dialect.full.edits.map Edit.production := by
    decide +kernel
  exact List.mem_map.1 (hall p p.mem_all)

/-- The full dialect has a rule for every production. -/
theorem rule?_full_ne_none (p : Production) : Dialect.full.grammar.rule? p ≠ none := by
  cases p <;> exact Option.some_ne_none _

/-- The full dialect leaves nothing of what was there before. -/
theorem load_full (g : Grammar) : g.load .full = Dialect.full.grammar := by
  have hrule : (g.load .full).rule? = Dialect.full.grammar.rule? := by
    funext p
    obtain ⟨rule, hrule⟩ := Option.ne_none_iff_exists'.1 (rule?_full_ne_none p)
    rw [load_eq_after, rule?_after, hrule]
    exact congrArg (Option.or · _) hrule
  have hroots : (g.load .full).roots = Dialect.full.grammar.roots := by
    rw [load_eq_after, roots_after]
    refine (congrArg (· ++ _) (List.filter_eq_nil_iff.2 fun p _ hnone => ?_)).trans
      (List.nil_append _)
    obtain ⟨e, hmem, rfl⟩ := exists_mem_edits_full p
    simpa using List.all_eq_true.1 hnone e hmem
  exact Grammar.ext hrule hroots

/-! ### How a production is read -/

/-- A production that has a rule is read by it, and one that has none fails. -/
theorem run_production_eq_unfolded (g : Grammar) (p : Production) (s : State) :
    ∃ depth, s.depthBound = depth + 1 ∧
      (g.production p).run s = (g.unfolded (g.parseWithin depth) p).run s := by
  obtain ⟨depth, hdepth⟩ : ∃ depth, s.depthBound = depth + 1 :=
    Nat.exists_eq_add_one_of_ne_zero (Nat.ne_zero_of_lt (Nat.mul_pos (by decide) s.size_pos))
  exact ⟨depth, hdepth, by rw [run_production, hdepth, parseWithin_succ]⟩

end Grammar

/-! ### Sessions -/

namespace Session

open Edit

/-- The edits that an operation performs. -/
def Operation.edits : Operation → List Edit
  | .edit e => [e]
  | .load d => d.edits
  | _ => []

/-- The edits that some operations perform, in order. -/
def history (operations : List Operation) : List Edit :=
  operations.flatMap Operation.edits

theorem grammar_apply_eq_after (s : Session) (operation : Operation) :
    (s.apply operation).grammar = s.grammar.after operation.edits := by
  cases operation <;> rfl

theorem grammar_run_eq_after (s : Session) (operations : List Operation) :
    (s.run operations).grammar = s.grammar.after (history operations) := by
  induction operations generalizing s with
  | nil => rfl
  | cons operation operations ih =>
    calc ((s.apply operation).run operations).grammar
        = (s.apply operation).grammar.after (history operations) := ih _
      _ = (s.grammar.after operation.edits).after (history operations) := by
        rw [grammar_apply_eq_after]
      _ = s.grammar.after (history (operation :: operations)) :=
        (Grammar.after_append _ _ _).symm

/-- A session has the grammar that its history builds. -/
theorem grammar_after (tokens : List Token) (file : String) (operations : List Operation) :
    (after tokens file operations).grammar = .build (history operations) :=
  grammar_run_eq_after _ operations

theorem root_eq_ok {s : Session} {p : Production} :
    s.root = .ok p ↔ s.grammar.root? = some p := by
  rw [root]
  cases s.grammar.root? with
  | none => exact ⟨nofun, nofun⟩
  | some q =>
    exact ⟨fun h => congrArg some (Except.ok.inj h), fun h => congrArg _ (Option.some.inj h)⟩

theorem root_eq_error {s : Session} :
    s.root = .error ⟨.noRootProduction, s.current.span.start⟩ ↔ s.grammar.root? = none := by
  rw [root]
  cases s.grammar.root? with
  | none => exact ⟨fun _ => rfl, fun _ => rfl⟩
  | some q => exact ⟨nofun, nofun⟩

/-- At any point of a run, whatever was asked for, the grammar of a session tells of the edits so
far what `Grammar.Remembers` says.  A production is read by the rule that was registered last, and one
without a rule fails; a statement starts from the candidate whose last edit is the latest one, or
from none if there is no candidate.  After the full dialect is loaded, the grammar is that of the
full dialect on its own. -/
theorem grammar_of_history (tokens : List Token) (file : String) (operations : List Operation) :
    (after tokens file operations).grammar.Remembers (history operations) ∧
    (∀ p rule, LastRule (history operations) p rule →
      ∃ depth, (after tokens file operations).state.depthBound = depth + 1 ∧
        ((after tokens file operations).grammar.production p).run
            (after tokens file operations).state =
          (do
            Parse.tell (.entered p (← Parse.current))
            rule.parse ((after tokens file operations).grammar.parseWithin depth)
              ((after tokens file operations).grammar.start
                ((after tokens file operations).grammar.parseWithin depth))).run
            (after tokens file operations).state) ∧
    (∀ p, (∀ rule root, .register p rule root ∉ history operations) →
      ((after tokens file operations).grammar.production p).run
          (after tokens file operations).state =
        (Parse.fail (.unregisteredProduction p.name)).run (after tokens file operations).state) ∧
    (∀ p, (after tokens file operations).root = .ok p ↔
      ∃ n, CandidateAt (history operations) p n ∧
        ∀ q m, CandidateAt (history operations) q m → n ≤ m) ∧
    ((after tokens file operations).root =
        .error ⟨.noRootProduction, (after tokens file operations).current.span.start⟩ ↔
      ∀ p n, ¬CandidateAt (history operations) p n) ∧
    (after tokens file (operations ++ [.load .full])).grammar = Dialect.full.grammar := by
  have hremembers : (after tokens file operations).grammar.Remembers (history operations) := by
    rw [grammar_after]
    exact Grammar.remembers_build _
  have hrun := (after tokens file operations).grammar.run_production_eq_unfolded
  refine ⟨hremembers, fun p rule hrule => ?_, fun p hnone => ?_, fun p => ?_, ?_, ?_⟩
  · obtain ⟨depth, hdepth, hproduction⟩ := hrun p (after tokens file operations).state
    refine ⟨depth, hdepth, hproduction.trans ?_⟩
    rw [Grammar.unfolded, (hremembers.rule? p rule).2 hrule]
  · obtain ⟨depth, -, hproduction⟩ := hrun p (after tokens file operations).state
    refine hproduction.trans ?_
    rw [Grammar.unfolded, grammar_after, Grammar.rule?_build_eq_none.2 hnone]
  · rw [root_eq_ok, hremembers.root?]
  · rw [root_eq_error, hremembers.root?_eq_none]
  · rw [after_append]
    exact Grammar.load_full _

/-- Truth values in the place of numbers, after a demotion and with other operations in between. -/
def replacing : List Operation :=
  [.load .core, .edit (.demote .number), .statement, .edit (.register .number .boolean true),
   .edit (.demote .primary), .advance]

/-- The later rule for numbers is the one that is run, and its production is where a statement
starts, while the loops still have no rule. -/
theorem grammar_of_history_replacing :
    LastRule (history replacing) .number .boolean ∧
    (∀ rule root, .register .loop rule root ∉ history replacing) ∧
    (after haltedTokens "f" replacing).grammar.rule? .number = some .boolean ∧
    (∃ depth, (after haltedTokens "f" replacing).state.depthBound = depth + 1 ∧
      ((after haltedTokens "f" replacing).grammar.production .number).run
          (after haltedTokens "f" replacing).state =
        (do
          Parse.tell (.entered .number (← Parse.current))
          Rule.boolean.parse ((after haltedTokens "f" replacing).grammar.parseWithin depth)
            ((after haltedTokens "f" replacing).grammar.start
              ((after haltedTokens "f" replacing).grammar.parseWithin depth))).run
          (after haltedTokens "f" replacing).state) ∧
    ((after haltedTokens "f" replacing).grammar.production .loop).run
        (after haltedTokens "f" replacing).state =
      (Parse.fail (.unregisteredProduction "LoopExpression")).run
        (after haltedTokens "f" replacing).state ∧
    (after haltedTokens "f" replacing).root = .ok .number ∧
    (after haltedTokens "f" (replacing ++ [.load .full])).grammar = Dialect.full.grammar := by
  have hlast : LastRule (history replacing) .number .boolean :=
    ⟨[.register .number .number true, .demote .number], true, [.demote .primary], rfl, by simp⟩
  have hnone : ∀ rule root, .register .loop rule root ∉ history replacing := by
    simp [history, replacing, Operation.edits, Dialect.edits, Dialect.numberEdits]
  have hcandidate : CandidateAt (history replacing) .number 1 :=
    ⟨[.register .number .number true, .demote .number], .boolean, [.demote .primary], rfl,
      by simp [production], rfl⟩
  have honly : ∀ q m, CandidateAt (history replacing) q m → 1 ≤ m := by
    rintro q m ⟨earlier, rule, later, h, -, rfl⟩
    cases later with
    | nil =>
      have hdemote : (history replacing).getLast? = some (.demote .primary) := rfl
      rw [h, List.getLast?_concat] at hdemote
      cases hdemote
    | cons e later => exact Nat.succ_pos _
  obtain ⟨hremembers, hrule, hfails, hroot, -, hfull⟩ :=
    grammar_of_history haltedTokens "f" replacing
  exact ⟨hlast, hnone, (hremembers.rule? _ _).2 hlast, hrule _ _ hlast, hfails _ hnone,
    (hroot _).2 ⟨1, hcandidate, honly⟩, hfull⟩

end Session

end Cascade
