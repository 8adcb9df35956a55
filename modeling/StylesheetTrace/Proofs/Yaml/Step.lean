import Mathlib.Algebra.GroupWithZero.Nat
import StylesheetTrace.Proofs.Yaml.Taking
import StylesheetTrace.Yaml.EventStream

/-!
# Steps of the machine

On the way to an event, tokens are looked at and taken, and it is settled what comes next and afterwards.
What holds on the way is that the marks which were taken are accounted for, and that the tokens that can
come are bounded (`Passing`). An event ends the way (`Gives`): it bears the mark that was taken, and less
is to come than before (`weight`). Not every event takes a token; those that may come in a row without one
are counted by the rank of what comes next.
-/

namespace StylesheetTrace.Yaml

open TokenStream

variable {s : List Char}

/-- The anchor that an event bears, or the alias that it is. -/
def EventKind.mark? : EventKind → Option TokenKind
  | .aliasOf name => some (.aliasOf name)
  | .scalar p _ _ | .sequenceStart p | .mappingStart p => p.anchor.map .anchor
  | _ => none

namespace Expecting

/-- What comes next is the beginning of a collection, which is a token of a kind. -/
def opening? : Expecting → Option TokenKind
  | stream => some .streamStart
  | sequenceStart => some .blockSequenceStart
  | mappingStart => some .blockMappingStart
  | flowSequenceStart => some .flowSequenceStart
  | flowMappingStart => some .flowMappingStart
  | pairKey => some .key
  | _ => none

/-- How many events may come in a row for which no token is taken. -/
def rank : Expecting → Nat
  | implicitDocument => 3
  | mappingValue | pairValue | flowMappingKey => 2
  | documentContent | documentEnd | blockNode | indentlessEntry | mappingKey | flowSequenceEntry
  | pairEnd | flowMappingValue | flowMappingEmptyValue => 1
  | _ => 0

/-- The rank of what comes afterwards. -/
def load (later : List Expecting) : Nat := (later.map rank).sum

end Expecting

open Expecting

namespace EventStream

variable {es : EventStream}

/-- How many events may come in a row for which no token is taken. A value that stands next is taken. -/
def rank (es : EventStream) : Nat :=
  if es.state = .mappingValue ∧ Known .value es.tokens then 0 else es.state.rank

/-- What is to come: four events for each token, and those without a token. -/
def weight (es : EventStream) : Nat := 4 * es.tokens.pending + es.rank + load es.afterwards

/-- The machine reads a text. -/
structure Ready (s : List Char) (es : EventStream) : Prop where
  /-- Its tokens are those of the text. -/
  live : Live s es.tokens
  /-- Where a collection begins, the first token is the one that begins it. -/
  opening : ∀ k, es.state.opening? = some k → Known k es.tokens
  /-- No collection begins afterwards. -/
  resumable : ∀ e ∈ es.afterwards, e.opening? = none

/-! ## Steps -/

/-- Where the step leads, the result and the new state have the property. -/
def Runs {α : Type} (x : Step α) (es : EventStream) (p : α → EventStream → Prop) : Prop :=
  Ensures (x es) fun r => p r.1 r.2

namespace Runs

variable {α β : Type} {x : Step α} {p : α → EventStream → Prop}

/-- A result without a step. -/
theorem pure {a : α} (h : p a es) : Runs (Pure.pure a) es p := Ensures.ok h

/-- A refusal leads nowhere. -/
theorem refuse {problem : Problem} {line : Nat} : Runs (EventStream.refuse problem line : Step α) es p :=
  Ensures.error

/-- A step behind another. -/
theorem bind {f : α → Step β} {q : β → EventStream → Prop} (hx : Runs x es p)
    (hf : ∀ a es', p a es' → Runs (f a) es' q) : Runs (x >>= f) es q :=
  Ensures.bind hx fun r hr => hf r.1 r.2 hr

/-- Either of two steps. -/
theorem ite {c : Prop} [Decidable c] {y : Step α} (hx : c → Runs x es p) (hy : ¬ c → Runs y es p) :
    Runs (if c then x else y) es p := by
  split
  · rename_i hc
    exact hx hc
  · rename_i hc
    exact hy hc

/-- The state may be looked at. -/
theorem get_bind {f : EventStream → Step β} {q : β → EventStream → Prop} (hf : Runs (f es) es q) :
    Runs (get >>= f) es q := hf

/-- The state changes. -/
theorem modify_bind {f : EventStream → EventStream} {y : PUnit → Step β}
    {q : β → EventStream → Prop} (hy : Runs (y ⟨⟩) (f es) q) : Runs (modify f >>= y) es q := hy

/-- A result that needs no state. -/
theorem lift_bind {y : Outcome α} {r : α → Prop} {f : α → Step β} {q : β → EventStream → Prop}
    (hy : Ensures y r) (hf : ∀ a, r a → Runs (f a) es q) : Runs ((liftM y : Step α) >>= f) es q :=
  Runs.bind (p := fun a es' => r a ∧ es' = es) (Ensures.bind hy fun _ ha => .ok ⟨ha, rfl⟩)
    fun a _ ha => ha.2 ▸ hf a ha.1

/-- There is a new state. -/
theorem set_bind {es' : EventStream} {y : PUnit → Step β} {q : β → EventStream → Prop}
    (hy : Runs (y ⟨⟩) es' q) : Runs (set es' >>= y) es q := hy

/-- A property that follows. -/
theorem mono {q : α → EventStream → Prop} (hx : Runs x es p) (h : ∀ a es', p a es' → q a es') :
    Runs x es q :=
  Ensures.mono hx fun r hr => h r.1 r.2 hr

end Runs

/-! ## On the way to an event -/

/-- On the way to an event. -/
structure Passing (s : List Char) (m used : List TokenKind) (b : Nat) (now : Expecting)
    (after : List Expecting) (es : EventStream) : Prop where
  /-- The tokens are those of the text. -/
  live : Live s es.tokens
  /-- Of the marks `m` that the tokens had, those of `used` were taken. -/
  kept : m <+: used ++ es.tokens.marks
  /-- The marks that were taken are written in the text. -/
  written : ∀ k ∈ used, k.IsWritten s
  /-- At most `b` tokens can come yet. -/
  pending_le : es.tokens.pending ≤ b
  /-- What comes next is `now`. -/
  state : es.state = now
  /-- What comes afterwards is `after`. -/
  afterwards : es.afterwards = after
  /-- No collection begins afterwards. -/
  resumable : ∀ e ∈ after, e.opening? = none

/-- The bound may be wider. -/
theorem Passing.mono {m used : List TokenKind} {b c : Nat} {now : Expecting} {after : List Expecting}
    (h : Passing s m used b now after es) (hbc : b ≤ c) : Passing s m used c now after es :=
  ⟨h.live, h.kept, h.written, h.pending_le.trans hbc, h.state, h.afterwards, h.resumable⟩

/-- An event was read. -/
structure Gives (s : List Char) (m : List TokenKind) (b : Nat) (e : Event) (es : EventStream) :
    Prop where
  /-- The machine reads on. -/
  ready : Ready s es
  /-- The mark of the event is the one that was taken. -/
  kept : m <+: e.kind.mark?.toList ++ es.tokens.marks
  /-- This mark is written in the text. -/
  written : ∀ k ∈ e.kind.mark?, k.IsWritten s
  /-- Less than `b` is to come. -/
  weight_lt : es.weight < b
  /-- The event is not the end of the text. -/
  goesOn : e.kind ≠ .streamEnd

section

variable {m used : List TokenKind} {b n : Nat} {now : Expecting} {after : List Expecting}
  {kind : TokenKind} {e : Event}

/-! ## Looking at tokens and taking them -/

/-- The tokens are read on. -/
theorem Passing.later (h : Passing s m used b now after es) {ts : TokenStream} (hts : Later s es.tokens ts) :
    Passing s m used b now after { es with tokens := ts } :=
  ⟨hts.live, h.kept.trans ((List.prefix_append_right_inj used).mpr hts.kept), h.written,
    hts.pending_le.trans h.pending_le, h.state, h.afterwards, h.resumable⟩

/-- The next token is looked at once. -/
theorem runs_glance (h : Passing s m used b now after es) :
    Runs glance es fun t es' => Passing s m used b now after es' ∧ Known t.kind es'.tokens ∧
      ∀ kind, (∀ c, kind ≠ .comment c) → Known kind es.tokens → t.kind = kind := by
  refine .get_bind (.lift_bind (later_peek h.live) fun r hr => .set_bind (.pure ⟨h.later hr.1, hr.2, ?_⟩))
  intro kind hcomment hk
  have hfirst := (hr.1.known kind hcomment hk).first_kind
  exact hr.2.first_kind.symm.trans hfirst

/-- The next token is looked at. -/
theorem runs_peek (h : Passing s m used b now after es) :
    Runs peek es fun t es' => Passing s m used b now after es' ∧ Known t.kind es'.tokens ∧
      ∀ kind, (∀ c, kind ≠ .comment c) → Known kind es.tokens → t.kind = kind := by
  refine (runs_glance h).bind fun t es' ⟨h', hknown, hsame⟩ => (runs_glance h').mono ?_
  -- The token is looked at twice, and is the same both times.
  intro u es'' ⟨h'', hknown', hsame'⟩
  exact ⟨h'', hknown', fun kind hc hk => hsame' kind hc (hsame kind hc hk ▸ hknown)⟩

/-- A known token is taken. -/
theorem runs_take (h : Passing s m used b now after es) (hk : Known kind es.tokens)
    (hcomment : ∀ c, kind ≠ .comment c) (hend : kind ≠ .streamEnd) :
    Runs take es fun t es' => t.kind = kind ∧ 0 < b ∧
      Passing s m (used ++ kind.marks) (b - 1) now after es' := by
  refine .get_bind (.lift_bind (took_next_of_known h.live hk hcomment hend) fun r ⟨hkind, htook⟩ =>
    .set_bind (.pure ⟨hkind, ?_, ⟨htook.live, ?_, ?_, ?_, h.state, h.afterwards, h.resumable⟩⟩))
  · have hlt := htook.pending_lt
    have hle := h.pending_le
    omega
  · rw [List.append_assoc, ← hkind]
    exact h.kept.trans ((List.prefix_append_right_inj used).mpr htook.kept)
  · intro k hmem
    rcases List.mem_append.mp hmem with hmem | hmem
    · exact h.written k hmem
    · unfold TokenKind.marks at hmem
      split at hmem
      · rw [List.mem_singleton.mp hmem, ← hkind]
        exact htook.written
      · exact absurd hmem List.not_mem_nil
  · have hlt := htook.pending_lt
    have hle := h.pending_le
    dsimp only
    omega

/-- The comments of the next token change. -/
theorem runs_annotate (h : Passing s m used b now after es)
    (change : Option Comments → Except Breakdown Comments) :
    Runs (annotate change) es fun _ es' => Passing s m used b now after es' ∧
      ∀ kind, Known kind es.tokens → Known kind es'.tokens := by
  refine .get_bind (.lift_bind (grown_withComments h.live change) fun ts hts => ?_)
  exact Ensures.ok ⟨h.later hts.later, hts.known⟩

/-- The comments of a token that was taken move on. -/
theorem runs_moveComments (h : Passing s m used b now after es) (t : Token) (spare : Bool) :
    Runs (moveComments t spare) es fun _ es' => Passing s m used b now after es' := by
  refine (runs_glance h).bind fun target es' ⟨h', _⟩ => ?_
  split
  · exact .pure h'
  · exact .pure h'
  · exact .pure h'
  · exact (runs_annotate h' _).bind fun _ _ h'' => .pure h''.1

/-- A known token is taken, and its comments move on. -/
theorem runs_takeMoving (h : Passing s m used b now after es) (hk : Known kind es.tokens)
    (hcomment : ∀ c, kind ≠ .comment c) (hend : kind ≠ .streamEnd) :
    Runs takeMoving es fun t es' => t.kind = kind ∧ 0 < b ∧
      Passing s m (used ++ kind.marks) (b - 1) now after es' :=
  (runs_take h hk hcomment hend).bind fun t _ ⟨hkind, hb, h'⟩ =>
    (runs_moveComments h' t false).bind fun _ _ h'' => .pure ⟨hkind, hb, h''⟩

/-- A known tag is taken, and its comments move on where there is room for them. -/
theorem runs_takeFirstTag (h : Passing s m used b now after es) {tag : TagText}
    (hk : Known (.tag tag) es.tokens) :
    Runs takeFirstTag es fun _ es' => Passing s m used b now after es' := by
  refine (runs_take h hk (by simp) (by simp)).bind fun t es' ⟨_, _, h'⟩ => .get_bind ?_
  -- A tag is no mark.
  replace h' : Passing s m used b now after es' := by
    have h'' := h'.mono (Nat.sub_le b 1)
    rwa [show TokenKind.marks (.tag tag) = [] from rfl, List.append_nil] at h''
  have hmove := runs_moveComments h' t false
  dsimp only
  split
  · rename_i hrun
    exact .set_bind (.pure (hmove _ hrun))
  · exact (runs_glance h').bind fun _ _ h'' => .pure h''.1
  · exact Runs.bind (p := fun _ _ => False) Ensures.error fun _ _ h => h.elim

/-! ## Going on -/

/-- A rank is never more than that of what comes next. -/
theorem rank_le (es : EventStream) : es.rank ≤ es.state.rank := by
  unfold rank
  split
  · exact Nat.zero_le _
  · exact le_rfl

/-- What comes next is settled. -/
theorem Passing.goTo (h : Passing s m used b now after es) (next : Expecting) :
    Passing s m used b next after { es with state := next } :=
  ⟨h.live, h.kept, h.written, h.pending_le, rfl, h.afterwards, h.resumable⟩

/-- What comes afterwards is settled. -/
theorem Passing.goToAfterwards (h : Passing s m used b now after es) (next : Expecting)
    (hnext : next.opening? = none) :
    Passing s m used b now (next :: after) { es with afterwards := next :: es.afterwards } :=
  ⟨h.live, h.kept, h.written, h.pending_le, h.state, h.afterwards ▸ rfl,
    List.forall_mem_cons.mpr ⟨hnext, h.resumable⟩⟩

/-- The event is there, and what was taken is its mark. -/
theorem Passing.gives (h : Passing s m used b now after es) (hused : used = e.kind.mark?.toList)
    (hend : e.kind ≠ .streamEnd) (hnow : ∀ k, now.opening? = some k → Known k es.tokens)
    (hn : 4 * b + es.rank + load after < n) : Gives s m n e es := by
  subst hused
  refine ⟨⟨h.live, h.state ▸ hnow, h.afterwards ▸ h.resumable⟩, h.kept, fun k hk => ?_, ?_, hend⟩
  · exact h.written k (Option.mem_toList.mpr hk)
  · have hle := h.pending_le
    rw [weight, h.afterwards]
    omega

/-- The event is there, and no collection begins next. -/
theorem Passing.gives_of_rank (h : Passing s m used b now after es)
    (hused : used = e.kind.mark?.toList) (hend : e.kind ≠ .streamEnd) (hnow : now.opening? = none)
    (hn : 4 * b + now.rank + load after < n) : Gives s m n e es := by
  have hrank := h.state ▸ rank_le es
  exact h.gives hused hend (by simp [hnow]) (by omega)

/-- The machine goes on where the present node left off. -/
theorem Passing.goBack (h : Passing s m used b now after es) (hused : used = e.kind.mark?.toList)
    (hend : e.kind ≠ .streamEnd) (hn : 4 * b + load after < n) :
    Runs (goBack >>= fun _ => Pure.pure e) es (Gives s m n) := by
  refine .modify_bind (.pure ?_)
  -- What comes next was counted among what comes afterwards.
  have hback : Passing s m used b (after.headD .document) (after.drop 1)
      { es with state := es.afterwards.headD .document, afterwards := es.afterwards.drop 1 } :=
    ⟨h.live, h.kept, h.written, h.pending_le, h.afterwards ▸ rfl, h.afterwards ▸ rfl,
      fun e he => h.resumable e (List.mem_of_mem_drop he)⟩
  cases after with
  | nil => exact hback.gives_of_rank hused hend rfl (by simpa [Expecting.rank] using hn)
  | cons e after =>
    refine hback.gives_of_rank hused hend (h.resumable e List.mem_cons_self) ?_
    simp only [load, List.map_cons, List.sum_cons] at hn
    change 4 * b + e.rank + (after.map Expecting.rank).sum < n
    omega

end

end EventStream

end StylesheetTrace.Yaml
