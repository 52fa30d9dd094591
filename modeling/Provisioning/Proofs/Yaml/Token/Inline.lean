import Provisioning.Proofs.Yaml.Token.Delivery
import Provisioning.Proofs.Yaml.Token.Lines

/-!
# Tokens inside a line

Behind the colon of a key no other key may begin on the line, so a token there is either a node, a
property of one, or the punctuation of a flow collection: `At.token_inline`. Dashes, question marks
and colons that would be indicators are faults. What a node on the line consists of is kept as it is
read (`ReadsNode`), because how far it goes is a question of its own.
-/

namespace Provisioning.Yaml

open Provisioning.Outcome (bind_eq_ok)
open Pending

namespace Lexer

/-- The punctuation of flow collections. -/
inductive IsFlow : Token.Kind → Prop where
  | sequenceStart : IsFlow .flowSequenceStart
  | mappingStart : IsFlow .flowMappingStart
  | sequenceEnd : IsFlow .flowSequenceEnd
  | mappingEnd : IsFlow .flowMappingEnd
  | entry : IsFlow .flowEntry

/-- A plain scalar may begin with this character among blocks: it is no indicator, or one that no
blank follows. -/
def BeginsScalar (c : Char) (rest : List Char) : Prop :=
  (isBlank c = false ∧ isIndicator c = false) ∨
    ((c = '-' ∨ c = '?' ∨ c = ':') ∧ endsWord rest = false)

/-- **A node, or a property of one, is read here**, which begins with `c`: the kind of its token,
where it ends, and whether a key may begin there. -/
inductive ReadsNode (c : Char) (rest : List Char) (mark : Mark) (indents : List Nat) :
    Token.Kind → Cursor → Bool → Prop where
  | anchor {name : List Char} {cursor : Cursor} :
      c = '&' → readName .anchor mark ⟨rest, mark.next⟩ = .ok (name, cursor) →
      ReadsNode c rest mark indents (.anchor name) cursor false
  | aliasTo {name : List Char} {cursor : Cursor} :
    ReadsNode c rest mark indents (.aliasTo name) cursor false
  | tag {handle : List Char} {octets : List UInt8} {cursor : Cursor} :
      c = '!' → readTag false mark ⟨'!' :: rest, mark⟩ = .ok ((handle, octets), cursor) →
      ReadsNode c rest mark indents (.tag handle octets) cursor false
  | block {literal : Bool} {text : List Char} {style : ScalarStyle} {cursor : Cursor} :
      c = '|' ∨ c = '>' →
      BlockText.read mark literal (indents.headD 0) (marginOf indents) ⟨rest, mark.next⟩
        = .ok (text, cursor) →
      ReadsNode c rest mark indents (.scalar text style) cursor true
  | singleQuoted {scalar : QuotedScalar} :
      c = '\'' → QuotedScalar.readSingle mark [] .closed mark.next rest = .ok scalar →
      ReadsNode c rest mark indents (.scalar scalar.text .singleQuoted) scalar.cursor false
  | doubleQuoted {text : List Char} {cursor : Cursor} : c = '"' →
      ReadsNode c rest mark indents (.scalar text .doubleQuoted) cursor false
  | plain {scalar : PlainScalar} :
      BeginsScalar c rest →
      PlainScalar.read ⟨mark, false, marginOf indents⟩ [c] .closed (mark.past [c])
        (mark.past [c]) rest = .ok scalar →
      ReadsNode c rest mark indents (.scalar scalar.text .plain) scalar.cursor scalar.crossedBreak

variable {lexer next : Lexer} {c : Char} {text rest : List Char} {mark : Mark} {indents : List Nat}
  {allowed : Bool} {around : List (List Token.Kind)} {kinds : List Token.Kind} {kind : Token.Kind}

/-- What the first characters of a token inside a line tell. -/
def FormInline (c : Char) (rest : List Char) : Form → Prop
  | .directive | .boundary _ => False
  | .flowStart kind | .flowEnd kind => IsFlow kind
  | .anchor => c = '&'
  | .tag => c = '!'
  | .block _ => c = '|' ∨ c = '>'
  | .singleQuoted => c = '\''
  | .doubleQuoted => c = '"'
  | .plain => BeginsScalar c rest
  | .flowEntry | .blockEntry | .explicitKey | .value | .aliasTo => True

theorem beginsScalar_of_beginsPlain (h : beginsPlain false c rest = true)
    (hdash : (c == '-' && endsWord rest) = false) : BeginsScalar c rest := by
  unfold beginsPlain at h
  simp only [Bool.or_eq_true, Bool.and_eq_true, Bool.not_eq_true', beq_iff_eq] at h
  rcases h with (⟨⟨hblank, _⟩, hindicator⟩ | ⟨rfl, _⟩) | ⟨⟨_, hmark⟩, hends⟩
  · exact .inl ⟨hblank, hindicator⟩
  · exact .inr ⟨.inl rfl, by simpa using hdash⟩
  · exact .inr ⟨.inr hmark, hends⟩

theorem of_ite_eq_some {condition : Bool} {form found : Form} {others : Option Form}
    (h : (if condition = true then some found else others) = some form) :
    (condition = true ∧ found = form) ∨ others = some form := by
  cases condition with
  | true => exact .inl ⟨rfl, Option.some.inj h⟩
  | false => exact .inr h

theorem form?_inline (hflow : lexer.inFlow = false) (hcolumn : lexer.mark.column ≠ 0) {form : Form}
    (h : lexer.form? c rest = some form) : FormInline c rest form := by
  have hstart : (lexer.mark.column == 0) = false := beq_eq_false_iff_ne.mpr hcolumn
  unfold form? at h
  dsimp only at h
  rw [hstart, hflow, Bool.false_and, Bool.false_and, if_neg Bool.false_ne_true,
    if_neg Bool.false_ne_true] at h
  rcases of_ite_eq_some h with ⟨_, rfl⟩ | h
  · exact .sequenceStart
  rcases of_ite_eq_some h with ⟨_, rfl⟩ | h
  · exact .mappingStart
  rcases of_ite_eq_some h with ⟨_, rfl⟩ | h
  · exact .sequenceEnd
  rcases of_ite_eq_some h with ⟨_, rfl⟩ | h
  · exact .mappingEnd
  rcases of_ite_eq_some h with ⟨_, rfl⟩ | h
  · trivial
  by_cases hdash : (c == '-' && endsWord rest) = true
  · rw [if_pos hdash] at h
    cases h
    trivial
  rw [if_neg hdash] at h
  rcases of_ite_eq_some h with ⟨_, rfl⟩ | h
  · trivial
  rcases of_ite_eq_some h with ⟨_, rfl⟩ | h
  · trivial
  rcases of_ite_eq_some h with ⟨_, rfl⟩ | h
  · trivial
  rcases of_ite_eq_some h with ⟨hanchor, rfl⟩ | h
  · exact beq_iff_eq.mp hanchor
  rcases of_ite_eq_some h with ⟨htag, rfl⟩ | h
  · exact beq_iff_eq.mp htag
  rcases of_ite_eq_some h with ⟨hliteral, rfl⟩ | h
  · exact .inl (beq_iff_eq.mp (Bool.and_eq_true_iff.mp hliteral).1)
  rcases of_ite_eq_some h with ⟨hfolded, rfl⟩ | h
  · exact .inr (beq_iff_eq.mp (Bool.and_eq_true_iff.mp hfolded).1)
  rcases of_ite_eq_some h with ⟨hsingle, rfl⟩ | h
  · exact beq_iff_eq.mp hsingle
  rcases of_ite_eq_some h with ⟨hdouble, rfl⟩ | h
  · exact beq_iff_eq.mp hdouble
  rcases of_ite_eq_some h with ⟨hplain, rfl⟩ | h
  · exact beginsScalar_of_beginsPlain hplain (Bool.not_eq_true _ ▸ hdash)
  · cases h

/-! ## What a token leads to -/

theorem At.abandonNoKey (h : lexer.At (c :: rest) mark indents allowed (Settled kinds) around) :
    lexer.abandonKey = .ok lexer := by
  unfold Lexer.abandonKey Pending.abandon
  rw [h.here.key]
  rfl

/-- A token that is put behind the others. -/
theorem At.pushed (h : lexer.At text mark indents allowed (Settled kinds) around)
    (kind : Token.Kind) (start stop : Mark) (cursor : Cursor) (allowed' : Bool) :
    At cursor.rest cursor.mark indents allowed' (Settled (kinds ++ [kind])) around
      { lexer.push kind start stop with cursor, keyAllowed := allowed' } :=
  ⟨rfl, h.indents, rfl, h.here.push ⟨kind, start, stop⟩, h.around⟩

theorem At.nodeToken_ok {read : Mark → Cursor → Except TextFault (Token.Kind × Cursor)}
    (hat : lexer.At (c :: rest) mark indents false (Settled kinds) around)
    (h : lexer.nodeToken read rest = .ok next) :
    ∃ kind cursor, read mark ⟨rest, mark.next⟩ = .ok (kind, cursor) ∧
      next.At cursor.rest cursor.mark indents false (Settled (kinds ++ [kind])) around := by
  obtain ⟨ready, hready, h⟩ := bind_eq_ok.mp h
  rw [hat.expectNoKey] at hready
  cases hready
  rw [hat.mark_eq] at h
  obtain ⟨⟨kind, cursor⟩, hread, h⟩ := bind_eq_ok.mp h
  cases h
  exact ⟨kind, cursor, hread, hat.pushed kind _ _ cursor false⟩

/-- The punctuation of a flow collection is settled, inside the collection and behind it. -/
theorem At.flow_settled (hat : lexer.At (c :: rest) mark indents false (Settled kinds) [])
    (h : lexer.flowStart kind = .ok next ∨ lexer.flowEnd kind = .ok next) :
    next.settled.map Token.kind = kinds ++ [kind] := by
  have houter : lexer.outer = [] := List.forall₂_nil_left_iff.mp hat.around
  have hpushed :
      (lexer.push kind lexer.mark (lexer.mark.right 1)).level.before.reverse.map Token.kind
      = kinds ++ [kind] := (hat.here.push ⟨kind, lexer.mark, lexer.mark.right 1⟩).before
  rcases h with h | h
  · obtain ⟨ready, hready, h⟩ := bind_eq_ok.mp h
    rw [hat.expectNoKey] at hready
    cases hready
    cases h
    unfold settled bottom
    show (((_ :: lexer.outer).getLast?.getD _).before.reverse).map Token.kind = _
    rw [houter]
    exact hpushed
  · obtain ⟨given, hgiven, h⟩ := bind_eq_ok.mp h
    rw [hat.abandonNoKey] at hgiven
    cases hgiven
    cases h
    rw [houter]
    unfold settled bottom
    show ((lexer.outer.getLast?.getD _).before.reverse).map Token.kind = _
    rw [houter]
    exact hpushed

/-- **Inside a line a token is a node, a property of one, or the punctuation of a flow
collection.** -/
theorem At.token_inline (hat : lexer.At (c :: rest) mark indents false (Settled kinds) [])
    (hcolumn : mark.column ≠ 0) (h : lexer.token c rest = .ok next) :
    (∃ kind, IsFlow kind ∧ next.settled.map Token.kind = kinds ++ [kind]) ∨
      ∃ kind cursor allowed, ReadsNode c rest mark indents kind cursor allowed ∧
        next.At cursor.rest cursor.mark indents allowed (Settled (kinds ++ [kind])) [] := by
  have hflow : lexer.inFlow = false := hat.inFlow_eq
  unfold token at h
  cases hform : lexer.form? c rest with
  | none =>
    rw [hform] at h
    cases h
  | some form =>
    have hinline := form?_inline hflow (hat.mark_eq ▸ hcolumn) hform
    rw [hform] at h
    cases form with
    | directive => exact hinline.elim
    | boundary kind => exact hinline.elim
    | flowStart kind => exact .inl ⟨kind, hinline, hat.flow_settled (.inl h)⟩
    | flowEnd kind => exact .inl ⟨kind, hinline, hat.flow_settled (.inr h)⟩
    | flowEntry =>
      obtain ⟨given, hgiven, h⟩ := bind_eq_ok.mp h
      rw [hat.abandonNoKey] at hgiven
      cases hgiven
      cases h
      exact .inl ⟨.flowEntry, .entry, (hat.pushed .flowEntry _ _ _ true).settled_eq⟩
    | blockEntry =>
      dsimp only at h
      unfold Lexer.blockEntry at h
      rw [hflow, hat.allowed] at h
      cases h
    | explicitKey =>
      dsimp only at h
      unfold Lexer.explicitKey at h
      rw [hflow, hat.allowed] at h
      cases h
    | value =>
      dsimp only at h
      unfold Lexer.value at h
      rw [hat.here.key, hflow, hat.allowed] at h
      cases h
    | aliasTo =>
      obtain ⟨kind, cursor, hread, hnext⟩ := hat.nodeToken_ok h
      obtain ⟨⟨name, behind⟩, hname, hread⟩ := bind_eq_ok.mp hread
      cases hread
      exact .inr ⟨_, _, _, .aliasTo, hnext⟩
    | anchor =>
      obtain ⟨kind, cursor, hread, hnext⟩ := hat.nodeToken_ok h
      obtain ⟨⟨name, behind⟩, hname, hread⟩ := bind_eq_ok.mp hread
      cases hread
      exact .inr ⟨_, _, _, .anchor hinline hname, hnext⟩
    | tag =>
      obtain ⟨kind, cursor, hread, hnext⟩ := hat.nodeToken_ok h
      obtain ⟨⟨⟨handle, octets⟩, behind⟩, htag, hread⟩ := bind_eq_ok.mp hread
      cases hread
      rw [hflow] at htag
      exact .inr ⟨_, _, _, .tag hinline htag, hnext⟩
    | block style =>
      obtain ⟨given, hgiven, h⟩ := bind_eq_ok.mp h
      rw [hat.abandonNoKey] at hgiven
      cases hgiven
      rw [hat.mark_eq, hat.indents, hat.margin_eq] at h
      obtain ⟨⟨text, cursor⟩, hread, h⟩ := bind_eq_ok.mp h
      cases h
      exact .inr ⟨_, _, _, .block hinline hread, hat.pushed _ _ _ cursor true⟩
    | singleQuoted =>
      obtain ⟨kind, cursor, hread, hnext⟩ := hat.nodeToken_ok h
      obtain ⟨scalar, hscalar, hread⟩ := bind_eq_ok.mp hread
      cases hread
      exact .inr ⟨_, _, _, .singleQuoted hinline hscalar, hnext⟩
    | doubleQuoted =>
      obtain ⟨kind, cursor, hread, hnext⟩ := hat.nodeToken_ok h
      obtain ⟨scalar, hscalar, hread⟩ := bind_eq_ok.mp hread
      cases hread
      exact .inr ⟨_, _, _, .doubleQuoted hinline, hnext⟩
    | plain =>
      obtain ⟨ready, hready, h⟩ := bind_eq_ok.mp h
      rw [hat.expectNoKey] at hready
      cases hready
      rw [hat.mark_eq, hflow, hat.margin_eq] at h
      obtain ⟨scalar, hread, h⟩ := bind_eq_ok.mp h
      cases h
      exact .inr ⟨_, _, _, .plain hinline hread, hat.pushed _ _ _ scalar.cursor _⟩

end Lexer

end Provisioning.Yaml
