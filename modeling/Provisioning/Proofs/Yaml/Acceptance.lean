import Provisioning.Proofs.Yaml.Growth
import Provisioning.Proofs.Yaml.Token.Inline
import Provisioning.Yaml.Stream
import Provisioning.Yaml.Reader

/-!
# What an accepted text tells

If a text is read at all, none of its parts was refused: no token by the builder and no character
by the lexer. So the state behind a part of an accepted text need only be known for the case that
it is reached. `Builder.Attains` says what holds behind some tokens if none is refused, and
`Lexer.Accepted.attained` that it does hold, and that the root of the document begins with what
was built there.
-/

namespace Provisioning.Yaml

open Provisioning.Outcome (bind_eq_ok)
open Node (Begins)
open Lexer (Reaches)
open Pending (Settled)

namespace Builder

variable {builder next : Builder} {tree : List Node} {kinds : List Token.Kind} {kind : Token.Kind}
  {holds : Builder → Prop}

/-- A builder within the document, whose root is not complete. -/
structure Inside (builder : Builder) : Prop where
  stage : builder.stage = .document
  root : builder.root = none
  pairs : PairsInside builder.awaited builder.stack

theorem Inside.kept (h : builder.Inside) : Holds (cut none builder.stack).toList builder :=
  .within h.stage h.root h.pairs (.refl _)

/-- As long as a collection is open, the document goes on. -/
theorem Inside.goesOn {token : Token} (h : builder.Inside) (hfeed : builder.feed token = .ok next)
    (hopen : next.stack ≠ []) : next.Inside := by
  have hkeeps := feed_keeps h.kept token
  rw [hfeed] at hkeeps
  cases hkeeps with
  | within hstage hroot hpairs _ => exact ⟨hstage, hroot, hpairs⟩
  | behind _ hstack _ _ => exact absurd hstack hopen

/-- Tokens keep what was built. -/
theorem foldlM_keeps : ∀ (tokens : List Token) {builder : Builder}, Holds tree builder →
    Keeps tree (tokens.foldlM feed builder) := by
  intro tokens
  induction tokens with
  | nil => intro builder h; exact h
  | cons token tokens ih =>
    intro builder h
    have hkeeps := feed_keeps h token
    rw [List.foldlM_cons]
    cases hfeed : builder.feed token with
    | error stop =>
      rw [hfeed] at hkeeps
      exact hkeeps
    | ok next =>
      rw [hfeed] at hkeeps
      exact ih hkeeps

/-- **Behind tokens of these kinds something holds**, or one of them is refused within the
document. -/
def Attains (kinds : List Token.Kind) (holds : Builder → Prop) : Prop :=
  ∀ tokens : List Token, tokens.map Token.kind = kinds →
    match tokens.foldlM feed initial with
    | .ok builder => builder.Inside ∧ holds builder
    | .error stop => stop.builder.stage = .document

/-- A further token need only be followed where it is not refused. -/
theorem Attains.snoc {holds' : Builder → Prop} (h : Attains kinds holds) (kind : Token.Kind)
    (hstep : ∀ builder start stop next, builder.Inside → holds builder →
      builder.feed ⟨kind, start, stop⟩ = .ok next → next.stack ≠ [] ∧ holds' next) :
    Attains (kinds ++ [kind]) holds' := by
  intro tokens hkinds
  obtain ⟨front, last, rfl, hfront, hlast⟩ := List.map_eq_append_iff.mp hkinds
  obtain ⟨⟨kind, start, stop⟩, others, rfl, rfl, hothers⟩ := List.map_eq_cons_iff.mp hlast
  cases List.map_eq_nil_iff.mp hothers
  have hattains := h front hfront
  rw [List.foldlM_append]
  cases hfold : front.foldlM feed initial with
  | error stop =>
    rw [hfold] at hattains
    exact hattains
  | ok builder =>
    rw [hfold] at hattains
    obtain ⟨hinside, hholds⟩ := hattains
    have hkeeps := feed_keeps hinside.kept ⟨kind, start, stop⟩
    rw [Outcome.ok_bind, List.foldlM_cons]
    cases hfeed : builder.feed ⟨kind, start, stop⟩ with
    | error stop =>
      rw [hfeed] at hkeeps
      exact hkeeps
    | ok next =>
      obtain ⟨hopen, hnext⟩ := hstep builder start _ next hinside hholds hfeed
      exact ⟨hinside.goesOn hfeed hopen, hnext⟩

/-- Tokens of these kinds are taken one by one, and something holds behind them. -/
def Feeds (holds : Builder → Prop) : List Token.Kind → Builder → Prop
  | [], builder => holds builder
  | kind :: kinds, builder =>
    ∀ start stop, ∃ next, builder.feed ⟨kind, start, stop⟩ = .ok next ∧ Feeds holds kinds next

theorem Feeds.foldlM : ∀ {kinds : List Token.Kind} {builder : Builder}, Feeds holds kinds builder →
    ∀ tokens : List Token, tokens.map Token.kind = kinds →
      ∃ next, tokens.foldlM feed builder = .ok next ∧ holds next := by
  intro kinds
  induction kinds with
  | nil =>
    intro builder h tokens hkinds
    cases List.map_eq_nil_iff.mp hkinds
    exact ⟨builder, rfl, h⟩
  | cons kind kinds ih =>
    intro builder h tokens hkinds
    obtain ⟨⟨kind, start, stop⟩, others, rfl, rfl, hothers⟩ := List.map_eq_cons_iff.mp hkinds
    obtain ⟨next, hfeed, hnext⟩ := h start stop
    obtain ⟨last, hlast, hholds⟩ := ih hnext others hothers
    refine ⟨last, ?_, hholds⟩
    rw [List.foldlM_cons, hfeed]
    exact hlast

/-- The first tokens of a document. -/
theorem Feeds.attains (h : Feeds (fun builder => builder.Inside ∧ holds builder) kinds initial) :
    Attains kinds holds := by
  intro tokens hkinds
  obtain ⟨next, hnext, hholds⟩ := h.foldlM tokens hkinds
  rw [hnext]
  exact hholds

/-- Further tokens that are taken in any case. -/
theorem Attains.feeds {more : List Token.Kind} {holds' : Builder → Prop} (h : Attains kinds holds)
    (hmore : ∀ builder, holds builder →
      Feeds (fun next => next.stack ≠ [] ∧ holds' next) more builder) :
    Attains (kinds ++ more) holds' := by
  intro tokens hkinds
  obtain ⟨front, back, rfl, hfront, hback⟩ := List.map_eq_append_iff.mp hkinds
  have hattains := h front hfront
  rw [List.foldlM_append]
  cases hfold : front.foldlM feed initial with
  | error stop =>
    rw [hfold] at hattains
    exact hattains
  | ok builder =>
    rw [hfold] at hattains
    obtain ⟨hinside, hholds⟩ := hattains
    obtain ⟨next, hnext, hopen, hlast⟩ := (hmore builder hholds).foldlM back hback
    have hkeeps := foldlM_keeps back hinside.kept
    rw [Outcome.ok_bind]
    rw [hnext] at hkeeps ⊢
    cases hkeeps with
    | within hstage hroot hpairs _ => exact ⟨⟨hstage, hroot, hpairs⟩, hlast⟩
    | behind _ hstack _ _ => exact absurd hstack hopen

/-- A token that is refused in any case is never behind the others. -/
theorem Attains.refused (h : Attains kinds holds) (kind : Token.Kind)
    (hrefuses : ∀ builder start stop next, holds builder →
      builder.feed ⟨kind, start, stop⟩ ≠ .ok next) :
    Attains (kinds ++ [kind]) fun _ => False :=
  h.snoc kind fun builder start stop next _ hholds hfeed =>
    absurd hfeed (hrefuses builder start stop next hholds)

end Builder

/-! ## Streams -/

section

variable {α : Type} {read : Reader α} {a : α} {stream : Stream} {builder : Builder}
  {fault : StreamFault} {tree : List Node}

/-- What is read from a stream is read from its root, and no fault ended the stream. -/
theorem Stream.read_eq_ok (h : stream.read read = .ok a) :
    stream.fault = none ∧ ∃ root followed, stream.root = some root ∧
      read ⟨stream, depthLimit, .root⟩ root 0 = .ok (a, followed) := by
  unfold Stream.read at h
  cases hroot : stream.root with
  | none =>
    rw [hroot] at h
    cases h
  | some root =>
    rw [hroot] at h
    dsimp only at h
    obtain ⟨⟨value, followed⟩, hread, h⟩ := bind_eq_ok.mp h
    dsimp only at h
    split at h
    · cases h
    · cases h
    · rename_i hfault _
      cases h
      exact ⟨hfault, root, followed, rfl, hread⟩

/-- A fault within the document is never passed over. -/
theorem stopped_not_read (h : builder.stage = .document) :
    (Stream.stopped builder fault).read read ≠ .ok a := by
  intro hread
  have hfault := (Stream.read_eq_ok hread).1
  unfold Stream.stopped at hfault
  rw [h] at hfault
  cases hfault

/-- Where a stream ends without a fault the root is complete. -/
theorem root_of_read (fault : StreamFault) (hholds : Builder.Holds tree builder)
    (hstream : stream = Stream.finished builder ∨ stream = Stream.stopped builder fault)
    (hread : stream.read read = .ok a) :
    ∃ root followed, Begins tree [root] ∧
      read ⟨stream, depthLimit, .root⟩ root 0 = .ok (a, followed) := by
  obtain ⟨hfault, root, followed, hroot, hok⟩ := Stream.read_eq_ok hread
  refine ⟨root, followed, ?_, hok⟩
  cases hholds with
  | within hstage hnone _ _ =>
    rcases hstream with rfl | rfl
    · exact absurd (hnone.symm.trans hroot) nofun
    · exact absurd hread (stopped_not_read hstage)
  | behind _ hstack _ htree =>
    have hsame : stream.root = builder.root := by
      rcases hstream with rfl | rfl
      · rfl
      · unfold Stream.stopped Builder.cutRoot
        rw [hstack]
        split <;> rfl
    rw [← hsame, hroot] at htree
    exact htree

end

namespace Lexer

variable {α : Type} {read : Reader α} {a : α} {lexer next : Lexer} {kinds : List Token.Kind}
  {holds : Builder → Prop} {there : Lexer → Prop} {text : List Char} {mark : Mark}
  {indents : List Nat} {allowed : Bool}

/-- **A text is accepted from here on**, as the value that the whole of it is read as. -/
def Accepted (read : Reader α) (a : α) (lexer : Lexer) : Prop :=
  (Stream.ofTokens lexer.run.1 lexer.run.2).read read = .ok a

theorem Accepted.reaches (h : lexer.Accepted read a) (hreaches : lexer.Reaches there) :
    ∃ next, there next ∧ next.Accepted read a := by
  obtain ⟨next, hrun, hthere⟩ := hreaches
  refine ⟨next, hthere, ?_⟩
  unfold Accepted at h ⊢
  rw [← hrun]
  exact h

/-- The tokens of a text begin with tokens of these kinds. -/
def Delivers (kinds : List Token.Kind) (lexer : Lexer) : Prop :=
  ∃ tokens, tokens <+: lexer.run.1 ∧ tokens.map Token.kind = kinds

theorem Delivers.front {front back : List Token.Kind} (h : lexer.Delivers (front ++ back)) :
    lexer.Delivers front := by
  obtain ⟨tokens, hprefix, hkinds⟩ := h
  obtain ⟨first, last, rfl, hfirst, -⟩ := List.map_eq_append_iff.mp hkinds
  exact ⟨first, (List.prefix_append first last).trans hprefix, hfirst⟩

theorem At.delivers (h : lexer.At text mark indents allowed (Settled kinds) []) :
    lexer.Delivers kinds :=
  ⟨lexer.settled, lexer.settled_prefix_run, h.settled_eq⟩

/-- **What tokens attain holds of an accepted text that begins with them**, and its root begins with
what was built there. -/
theorem Accepted.attained (h : lexer.Accepted read a) (hdelivers : lexer.Delivers kinds)
    (hattains : Builder.Attains kinds holds) :
    ∃ builder root scope followed, holds builder ∧
      Begins (Builder.cut none builder.stack).toList [root] ∧
      read scope root 0 = .ok (a, followed) := by
  obtain ⟨tokens, ⟨more, hmore⟩, hkinds⟩ := hdelivers
  unfold Accepted Stream.ofTokens at h
  rw [← hmore, List.foldlM_append] at h
  have hattained := hattains _ hkinds
  cases hfold : tokens.foldlM Builder.feed Builder.initial with
  | error stop =>
    rw [hfold] at h hattained
    exact absurd h (stopped_not_read hattained)
  | ok builder =>
    rw [hfold] at h hattained
    rw [Outcome.ok_bind] at h
    obtain ⟨hinside, hholds⟩ := hattained
    have hkeeps := Builder.foldlM_keeps more hinside.kept
    cases hlast : more.foldlM Builder.feed builder with
    | error stop =>
      rw [hlast] at h hkeeps
      exact absurd h (stopped_not_read hkeeps)
    | ok last =>
      rw [hlast] at h hkeeps
      dsimp only at h
      -- Whether a fault ended the tokens or not, the document was complete by then.
      cases hfault : lexer.run.2 with
      | none =>
        rw [hfault] at h
        obtain ⟨root, followed, hbegins, hok⟩ :=
          root_of_read (.unknownAnchor .origin) hkeeps (.inl rfl) h
        exact ⟨builder, root, _, followed, hholds, hbegins, hok⟩
      | some fault =>
        rw [hfault] at h
        obtain ⟨root, followed, hbegins, hok⟩ := root_of_read (.text fault) hkeeps (.inr rfl) h
        exact ⟨builder, root, _, followed, hholds, hbegins, hok⟩

/-- No token of an accepted text was refused. -/
theorem Accepted.not_refused (h : lexer.Accepted read a) (hdelivers : lexer.Delivers kinds)
    (hattains : Builder.Attains kinds fun _ => False) : False := by
  obtain ⟨_, _, _, _, hfalse, _, _⟩ := h.attained hdelivers hattains
  exact hfalse

/-- **An accepted text has no fault within the document.** -/
theorem Accepted.step (h : lexer.Accepted read a)
    (hat : lexer.At text mark indents allowed (Settled kinds) [])
    (hattains : Builder.Attains kinds holds) : ∃ step, lexer.step = .ok step := by
  cases hstep : lexer.step with
  | ok step => exact ⟨step, rfl⟩
  | error fault =>
    have hattained := hattains _ hat.settled_eq
    unfold Accepted Stream.ofTokens at h
    rw [run_of_error hstep, hat.deliverable_eq] at h
    dsimp only at h
    cases hfold : lexer.settled.foldlM Builder.feed Builder.initial with
    | error stop =>
      rw [hfold] at h hattained
      exact absurd h (stopped_not_read hattained)
    | ok builder =>
      rw [hfold] at h hattained
      exact absurd h (stopped_not_read hattained.1.stage)

/-- Two characters are reserved, so that no token begins with them. -/
theorem form?_reserved {c : Char} (hc : c = '@' ∨ c = '\x60') (rest : List Char) :
    lexer.form? c rest = none := by
  have hboundary : isBoundary (c :: rest) = false := by
    rcases hc with rfl | rfl
    all_goals simp [isBoundary]
  unfold form? beginsPlain
  rw [hboundary]
  rcases hc with rfl | rfl
  all_goals simp [isIndicator]

theorem Accepted.not_reserved {c : Char} {rest : List Char} {mark' : Mark} {indents' : List Nat}
    {allowed' : Bool} {here : Pending → Prop} (h : lexer.Accepted read a)
    (hc : c = '@' ∨ c = '\x60')
    (hat : lexer.At text mark indents allowed (Settled kinds) [])
    (hmeets : lexer.Meets (c :: rest) mark' indents' allowed' here [])
    (hattains : Builder.Attains kinds holds) : False := by
  obtain ⟨ready, hready, hstands⟩ := hmeets
  obtain ⟨result, hstep⟩ := h.step hat hattains
  unfold Lexer.step at hstep
  rw [hready, Outcome.ok_bind, hstands.cursor] at hstep
  obtain ⟨next, hnext, -⟩ := bind_eq_ok.mp hstep
  unfold token at hnext
  rw [form?_reserved hc] at hnext
  cases hnext

/-- **A token on a line of an accepted text** is read without a fault. -/
theorem Accepted.token {c : Char} {rest : List Char} {mark' : Mark} (h : lexer.Accepted read a)
    (hat : lexer.At text mark indents allowed (Settled kinds) [])
    (hmeets : lexer.Meets (c :: rest) mark' indents false (Settled kinds) [])
    (hcolumn : mark'.column ≠ 0) (hattains : Builder.Attains kinds holds) :
    ∃ next : Lexer, next.Accepted read a ∧
      ((∃ kind, IsFlow kind ∧ next.Delivers (kinds ++ [kind])) ∨
      ∃ kind cursor allowed, ReadsNode c rest mark' indents kind cursor allowed ∧
        next.At cursor.rest cursor.mark indents allowed (Settled (kinds ++ [kind])) []) := by
  obtain ⟨ready, hready, hstands⟩ := hmeets
  obtain ⟨result, hstep⟩ := h.step hat hattains
  have hbehind := hstep
  unfold Lexer.step at hbehind
  rw [hready, Outcome.ok_bind, hstands.cursor] at hbehind
  dsimp only at hbehind
  obtain ⟨next, hnext, hbehind⟩ := bind_eq_ok.mp hbehind
  obtain ⟨last, hlast, hbehind⟩ := bind_eq_ok.mp hbehind
  cases hbehind
  refine ⟨last, ?_, ?_⟩
  · unfold Accepted at h ⊢
    rw [← run_of_token hstep]
    exact h
  · rcases hstands.token_inline hcolumn hnext with ⟨kind, hflow, hkinds⟩
      | ⟨kind, cursor, allowed, hreads, hthere⟩
    · have hprefix := (keeps_expireKeys hlast).settled.trans last.settled_prefix_run
      exact .inl ⟨kind, hflow, next.settled, hprefix, hkinds⟩
    · obtain ⟨expired, hexpired, hthere⟩ := hthere.expireKeys (Pending.steady_settled _ _)
      rw [hlast] at hexpired
      cases hexpired
      exact .inr ⟨kind, cursor, allowed, hreads, hthere⟩

end Lexer

end Provisioning.Yaml
