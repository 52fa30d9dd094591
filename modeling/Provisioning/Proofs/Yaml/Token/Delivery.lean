import Mathlib.Data.List.Infix
import Provisioning.Proofs.Yaml.Token.Standing

/-!
# What is delivered of a text

The tokens in front of the possible key of the outermost level are settled: whatever is read
later, also a fault, they are among the tokens of the text, and they come first. Each step of the
lexer only adds to them, so this is an induction over the steps (`settled_prefix_run`). It says
nothing about which tokens follow, and so it holds of a text of which nothing else is known.
-/

namespace Provisioning.Yaml

open Provisioning.Outcome (bind_eq_ok)

namespace Pending

variable {level next : Pending} {now : Mark}

theorem before_push (level : Pending) (token : Token) :
    level.before <:+ (level.push token).before := by
  unfold push
  cases level.key with
  | none => exact List.suffix_cons token level.before
  | some key => exact List.suffix_refl level.before

theorem before_append (level : Pending) (tokens : List Token) :
    level.before <:+ (level.append tokens).before := by
  unfold append
  cases level.key with
  | none => exact List.suffix_append tokens level.before
  | some key => exact List.suffix_refl level.before

theorem before_confirm (level : Pending) (tokens : List Token) :
    level.before <:+ (level.confirm tokens).before :=
  (List.suffix_append tokens level.before).trans (List.suffix_append level.after _)

theorem before_abandon (h : level.abandon now = .ok next) : level.before <:+ next.before := by
  unfold abandon at h
  cases hkey : level.key with
  | none =>
    rw [hkey] at h
    cases h
    exact List.suffix_refl level.before
  | some key =>
    rw [hkey] at h
    dsimp only at h
    by_cases hrequired : key.required
    · rw [if_pos hrequired] at h
      cases h
    · rw [if_neg hrequired] at h
      cases h
      exact List.suffix_append level.after level.before

theorem before_expire (h : level.expire now = .ok next) : level.before <:+ next.before := by
  unfold expire at h
  cases hkey : level.key with
  | none =>
    rw [hkey] at h
    cases h
    exact List.suffix_refl level.before
  | some key =>
    rw [hkey] at h
    dsimp only at h
    by_cases hstale : key.isStale now
    · rw [if_pos hstale] at h
      exact before_abandon h
    · rw [if_neg hstale] at h
      cases h
      exact List.suffix_refl level.before

end Pending

namespace Lexer

/-- The outermost level. -/
def bottom (lexer : Lexer) : Pending := lexer.outer.getLast?.getD lexer.level

/-- The tokens in front of the possible key of the outermost level, in the order of the text. -/
def settled (lexer : Lexer) : List Token := lexer.bottom.before.reverse

/-- **What is settled in one state stays settled in another.** -/
def Keeps (lexer next : Lexer) : Prop := lexer.bottom.before <:+ next.bottom.before

variable {lexer ready next last : Lexer} {kind : Token.Kind} {c : Char} {rest : List Char}

theorem Keeps.refl (lexer : Lexer) : lexer.Keeps lexer := List.suffix_refl _

theorem Keeps.trans (h : lexer.Keeps ready) (hnext : ready.Keeps next) : lexer.Keeps next :=
  List.IsSuffix.trans h hnext

theorem Keeps.settled (h : lexer.Keeps next) : lexer.settled <+: next.settled :=
  List.reverse_prefix.mpr h

/-- A level that only takes in further tokens keeps what is settled, also if it is the outermost. -/
theorem keeps_of_level (houter : next.outer = lexer.outer)
    (hlevel : lexer.level.before <:+ next.level.before) : lexer.Keeps next := by
  unfold Keeps bottom
  rw [houter]
  cases lexer.outer.getLast? with
  | none => exact hlevel
  | some level => exact List.suffix_refl _

/-! ## Each token keeps what is settled -/

theorem keeps_abandonKey (h : lexer.abandonKey = .ok next) : lexer.Keeps next := by
  obtain ⟨level, hlevel, h⟩ := bind_eq_ok.mp h
  cases h
  exact keeps_of_level rfl (Pending.before_abandon hlevel)

theorem keeps_expectKey (h : lexer.expectKey = .ok next) : lexer.Keeps next := by
  unfold expectKey at h
  by_cases hallowed : lexer.keyAllowed
  · rw [if_pos hallowed] at h
    obtain ⟨given, hgiven, h⟩ := bind_eq_ok.mp h
    cases h
    exact (keeps_abandonKey hgiven).trans (keeps_of_level rfl (List.suffix_refl _))
  · rw [if_neg hallowed] at h
    cases h
    exact .refl lexer

/-- The last of the levels around a level loses nothing when stale keys are given up. -/
theorem before_last {outer expired : List Pending} {now : Mark} (level : Pending) :
    outer.mapM (·.expire now) = .ok expired → ∀ {inner : Pending}, level.before <:+ inner.before →
      (outer.getLast?.getD level).before <:+ (expired.getLast?.getD inner).before := by
  induction outer generalizing level expired with
  | nil =>
    intro h inner hlevel
    cases h
    exact hlevel
  | cons first others ih =>
    intro h inner _
    rw [List.mapM_cons] at h
    obtain ⟨firstExpired, hfirst, h⟩ := bind_eq_ok.mp h
    obtain ⟨othersExpired, hothers, h⟩ := bind_eq_ok.mp h
    cases h
    -- The first level is the last one just when no others follow it.
    rw [List.getLast?_cons, List.getLast?_cons]
    exact ih first hothers (Pending.before_expire hfirst)

theorem keeps_expireKeys (h : lexer.expireKeys = .ok next) : lexer.Keeps next := by
  obtain ⟨outer, houter, h⟩ := bind_eq_ok.mp h
  obtain ⟨level, hlevel, h⟩ := bind_eq_ok.mp h
  cases h
  exact before_last lexer.level houter (Pending.before_expire hlevel)

theorem keeps_closeBlocks (deeper : Nat → Bool) (lexer : Lexer) :
    lexer.Keeps (lexer.closeBlocks deeper) := by
  unfold closeBlocks
  by_cases hflow : lexer.inFlow
  · rw [if_pos hflow]
    exact .refl lexer
  · rw [if_neg hflow]
    exact keeps_of_level rfl (Pending.before_append _ _)

theorem keeps_openBlock (kind : Token.Kind) (lexer : Lexer) : lexer.Keeps (lexer.openBlock kind) :=
  keeps_of_level rfl (Pending.before_append _ _)

theorem keeps_push (kind : Token.Kind) (start stop : Mark) (lexer : Lexer) :
    lexer.Keeps (lexer.push kind start stop) :=
  keeps_of_level rfl (Pending.before_push _ _)

theorem keeps_nodeToken {read : Mark → Cursor → Except TextFault (Token.Kind × Cursor)}
    (h : lexer.nodeToken read rest = .ok next) : lexer.Keeps next := by
  obtain ⟨ready, hready, h⟩ := bind_eq_ok.mp h
  obtain ⟨⟨kind, cursor⟩, hread, h⟩ := bind_eq_ok.mp h
  cases h
  exact (keeps_expectKey hready).trans (keeps_push kind _ _ ready)

theorem keeps_flowStart (h : lexer.flowStart kind = .ok next) : lexer.Keeps next := by
  obtain ⟨ready, hready, h⟩ := bind_eq_ok.mp h
  cases h
  refine (keeps_expectKey hready).trans ?_
  have hpushed := keeps_push kind ready.mark (ready.mark.right 1) ready
  -- The level that is left becomes one of those around; if there was none, it is the outermost.
  unfold Keeps bottom at hpushed ⊢
  show _ <:+ (((ready.push kind ready.mark (ready.mark.right 1)).level ::
    ready.outer).getLast?.getD _).before
  rw [List.getLast?_cons]
  exact hpushed

theorem keeps_flowEnd (h : lexer.flowEnd kind = .ok next) : lexer.Keeps next := by
  obtain ⟨given, hgiven, h⟩ := bind_eq_ok.mp h
  cases h
  refine (keeps_abandonKey hgiven).trans ?_
  cases houter : given.outer with
  | nil => exact keeps_push kind given.mark (given.mark.right 1) given
  | cons around outer =>
    have hjoined : given.Keeps { given with level := around.append given.level.before, outer } := by
      unfold Keeps bottom
      rw [houter, List.getLast?_cons]
      cases outer.getLast? with
      | none => exact Pending.before_append around _
      | some level => exact List.suffix_refl _
    exact hjoined.trans (keeps_push kind given.mark (given.mark.right 1) _)

theorem keeps_value (h : lexer.value = .ok next) : lexer.Keeps next := by
  unfold value at h
  split at h
  · cases h
    refine keeps_of_level rfl ?_
    exact (Pending.before_confirm lexer.level _).trans (Pending.before_push _ _)
  · split at h
    · cases h
    · cases h
      exact (keeps_openBlock .blockMappingStart lexer).trans (keeps_push .value _ _ _)

/-- A token that is no key gives up the key that was possible. -/
theorem keeps_given (h : lexer.abandonKey = .ok next) (kind : Token.Kind) (start stop : Mark) :
    lexer.Keeps (next.push kind start stop) :=
  (keeps_abandonKey h).trans (keeps_push kind start stop next)

/-- **A token keeps what is settled.** -/
theorem keeps_token (h : lexer.token c rest = .ok next) : lexer.Keeps next := by
  unfold token at h
  cases hform : lexer.form? c rest with
  | none =>
    rw [hform] at h
    cases h
  | some form =>
    rw [hform] at h
    cases form with
    | directive =>
      obtain ⟨given, hgiven, h⟩ := bind_eq_ok.mp h
      obtain ⟨⟨directive, stop, cursor⟩, hread, h⟩ := bind_eq_ok.mp h
      cases h
      exact (keeps_closeBlocks _ lexer).trans (keeps_given hgiven _ _ _)
    | boundary kind =>
      obtain ⟨given, hgiven, h⟩ := bind_eq_ok.mp h
      cases h
      exact (keeps_closeBlocks _ lexer).trans (keeps_given hgiven _ _ _)
    | flowStart kind => exact keeps_flowStart h
    | flowEnd kind => exact keeps_flowEnd h
    | flowEntry =>
      obtain ⟨given, hgiven, h⟩ := bind_eq_ok.mp h
      cases h
      exact keeps_given hgiven _ _ _
    | blockEntry =>
      dsimp only at h
      unfold blockEntry at h
      split at h
      · cases h
      · obtain ⟨given, hgiven, h⟩ := bind_eq_ok.mp h
        cases h
        exact (keeps_openBlock _ lexer).trans (keeps_given hgiven _ _ _)
    | explicitKey =>
      dsimp only at h
      unfold explicitKey at h
      split at h
      · cases h
      · obtain ⟨given, hgiven, h⟩ := bind_eq_ok.mp h
        cases h
        exact (keeps_openBlock _ lexer).trans (keeps_given hgiven _ _ _)
    | value => exact keeps_value h
    | block style =>
      obtain ⟨given, hgiven, h⟩ := bind_eq_ok.mp h
      obtain ⟨⟨text, cursor⟩, hread, h⟩ := bind_eq_ok.mp h
      cases h
      exact keeps_given hgiven _ _ _
    | plain =>
      obtain ⟨ready, hready, h⟩ := bind_eq_ok.mp h
      obtain ⟨scalar, hread, h⟩ := bind_eq_ok.mp h
      cases h
      exact (keeps_expectKey hready).trans (keeps_push _ _ _ ready)
    | aliasTo => exact keeps_nodeToken h
    | anchor => exact keeps_nodeToken h
    | tag => exact keeps_nodeToken h
    | singleQuoted => exact keeps_nodeToken h
    | doubleQuoted => exact keeps_nodeToken h

/-! ## The whole text -/

theorem keeps_toToken (h : lexer.toToken = .ok next) : lexer.Keeps next := by
  obtain ⟨expired, hexpired, h⟩ := bind_eq_ok.mp h
  cases h
  have hmoved := keeps_expireKeys hexpired
  exact Keeps.trans (keeps_of_level rfl (List.suffix_refl _))
    (hmoved.trans (keeps_closeBlocks _ expired))

theorem keeps_finish (h : lexer.finish = .ok next) : lexer.Keeps next := by
  obtain ⟨given, hgiven, h⟩ := bind_eq_ok.mp h
  have hclosed := (keeps_closeBlocks _ _).trans (keeps_abandonKey hgiven)
  exact Keeps.trans (keeps_of_level rfl (List.suffix_refl _))
    (hclosed.trans ((keeps_push _ _ _ given).trans (keeps_expireKeys h)))

theorem keeps_step_token (h : lexer.step = .ok (.token next)) : lexer.Keeps next := by
  obtain ⟨ready, hready, h⟩ := bind_eq_ok.mp h
  split at h
  · obtain ⟨last, _, h⟩ := bind_eq_ok.mp h
    cases h
  · obtain ⟨behind, hbehind, h⟩ := bind_eq_ok.mp h
    obtain ⟨last, hlast, h⟩ := bind_eq_ok.mp h
    cases h
    exact ((keeps_toToken hready).trans (keeps_token hbehind)).trans (keeps_expireKeys hlast)

theorem keeps_step_finished (h : lexer.step = .ok (.finished next)) : lexer.Keeps next := by
  obtain ⟨ready, hready, h⟩ := bind_eq_ok.mp h
  split at h
  · obtain ⟨last, hlast, h⟩ := bind_eq_ok.mp h
    cases h
    exact (keeps_toToken hready).trans (keeps_finish hlast)
  · obtain ⟨behind, _, h⟩ := bind_eq_ok.mp h
    obtain ⟨last, _, h⟩ := bind_eq_ok.mp h
    cases h

/-- What is settled is the beginning of what is delivered at once. -/
theorem settled_prefix_deliverable (lexer : Lexer) : lexer.settled <+: lexer.deliverable := by
  unfold settled bottom deliverable
  rw [← List.head?_reverse]
  cases lexer.outer.reverse with
  | nil => exact List.prefix_append _ _
  | cons level inner => exact List.prefix_append _ _

variable {text : List Char} {mark : Mark} {indents : List Nat} {allowed : Bool}
  {kinds : List Token.Kind}

/-- In block context everything is settled as long as no key is possible. -/
theorem At.settled_eq (h : lexer.At text mark indents allowed (Pending.Settled kinds) []) :
    lexer.settled.map Token.kind = kinds := by
  have houter : lexer.outer = [] := List.forall₂_nil_left_iff.mp h.around
  unfold settled bottom
  rw [houter]
  exact h.here.before

theorem At.deliverable_eq (h : lexer.At text mark indents allowed (Pending.Settled kinds) []) :
    lexer.deliverable = lexer.settled := by
  have houter : lexer.outer = [] := List.forall₂_nil_left_iff.mp h.around
  unfold deliverable settled bottom
  rw [houter]
  show lexer.level.before.reverse ++ (if lexer.level.key.isSome then [] else [])
    = lexer.level.before.reverse
  rw [ite_self, List.append_nil]

/-- **What is settled is the beginning of all tokens of the text.** -/
theorem settled_prefix_run (lexer : Lexer) : lexer.settled <+: lexer.run.1 := by
  induction hn : lexer.cursor.rest.length using Nat.strongRecOn generalizing lexer with
  | ind n ih =>
    cases hstep : lexer.step with
    | error fault =>
      rw [run_of_error hstep]
      exact lexer.settled_prefix_deliverable
    | ok step =>
      cases step with
      | finished next =>
        rw [run_of_finished hstep]
        exact (keeps_step_finished hstep).settled.trans next.settled_prefix_deliverable
      | token next =>
        rw [run_of_token hstep]
        have hless := step_length_lt hstep
        exact (keeps_step_token hstep).settled.trans (ih _ (by omega) next rfl)

end Lexer

end Provisioning.Yaml
