import StylesheetTrace.Proofs.Yaml.Event
import StylesheetTrace.Yaml.Node

/-!
# Anchors and aliases that are recognised

The events of a text are read and composed one after another (`Reads`), and the bound on their number
suffices to reach the end of the text (`fold_ofText_eq`). A mark is recognised when it is among the
tokens meanwhile (`Recognizes`). The names that aliases can stand for are those of the anchors that the
events before them bear (`names_step`). So in a text that is read without a refusal, there is for every
mark that is recognised an anchor of its name (`Recognizes.anchor`).
-/

namespace StylesheetTrace.Yaml

variable {s : List Char}

/-- The name of the anchor that an event bears. -/
def EventKind.anchor? : EventKind → Option String
  | .scalar p _ _ | .sequenceStart p | .mappingStart p => p.anchor
  | _ => none

/-- The anchor of an event is the mark that it bears. -/
theorem EventKind.mark?_eq_anchor {k : EventKind} {n : String} :
    k.mark? = some (.anchor n) ↔ k.anchor? = some n := by
  cases k <;> simp [mark?, anchor?]

/-- An event with an alias for its mark is the alias. -/
theorem EventKind.mark?_eq_aliasOf {k : EventKind} {n : String} :
    k.mark? = some (.aliasOf n) ↔ k = .aliasOf n := by
  cases k <;> simp [mark?]

namespace Composition

/-- The names that aliases can stand for. -/
def names (c : Composition) : List String := c.anchors.map Prod.fst

/-- A node at its place gives no name. -/
@[simp]
theorem names_place (c : Composition) (n : Node) : (c.place n).names = c.names := by
  unfold place
  split <;> rfl

/-- A node gives the name of its anchor. -/
@[simp]
theorem names_bind (c : Composition) (anchor : Option String) (n : Node) :
    (c.bind anchor n).names = anchor.toList ++ c.names := by
  cases anchor <;> rfl

/-- A collection that ends gives no name. -/
@[simp]
theorem names_leave (c : Composition) : c.leave.names = c.names := by
  unfold leave
  split
  · rfl
  · rw [names_place]
    unfold settle
    split
    · rfl
    · simp [names, Function.comp_def]

/-- A node that begins gives no name by itself. -/
theorem names_begin (c : Composition) (p : Properties) (tag : Outcome Tag) (line : Nat) :
    Ensures (c.begin p tag line) fun r => r.2.names = c.names :=
  .ite (fun _ => Ensures.bind (p := fun _ => False) .error fun _ h => h.elim) fun _ =>
    Ensures.bind (p := fun _ => True) (fun _ _ => trivial) fun _ _ => .ok rfl

/-- A scalar gives the name of its anchor. -/
theorem names_scalar (c : Composition) (p : Properties) (text : List Char) (style : Style)
    (line : Nat) :
    Ensures (c.scalar p text style line) fun d => d.names = p.anchor.toList ++ c.names := by
  refine (names_begin c p _ line).bind fun r hr => .ok ?_
  rw [names_place, names_bind, hr]

/-- A collection that begins gives the name of its anchor. -/
theorem names_enter (c : Composition) (p : Properties) (tag : Tag) (parts : Parts) (line : Nat) :
    Ensures (c.enter p tag parts line) fun d => d.names = p.anchor.toList ++ c.names := by
  refine (names_begin c p _ line).bind fun r hr => .ok ?_
  rw [← hr]
  exact names_bind r.2 p.anchor _

/-- An alias has one of the names. -/
theorem mem_names_of_aliased (c : Composition) (name : String) (line : Nat) :
    Ensures (c.aliased name line) fun _ => name ∈ c.names := by
  unfold aliased
  split
  · exact .error
  · rename_i hlookup
    obtain ⟨before, behind, hanchors, -⟩ := List.lookup_eq_some_iff.mp hlookup
    exact .ok (by simp [names, hanchors])

/-- An event gives the name of its anchor, and an alias has a name that was given. -/
theorem names_step (c : Composition) (version : Option (Nat × Nat)) (e : Event) :
    Ensures (c.step version e) fun d =>
      d.names = e.kind.anchor?.toList ++ c.names ∧ ∀ n, e.kind = .aliasOf n → n ∈ c.names := by
  -- Where an event bears no anchor, the names stay the same.
  have hsame : ∀ d : Composition, d.names = c.names → e.kind.anchor? = none →
      (∀ n, e.kind ≠ .aliasOf n) →
      d.names = e.kind.anchor?.toList ++ c.names ∧ ∀ n, e.kind = .aliasOf n → n ∈ c.names :=
    fun d hd hanchor halias => ⟨by rw [hanchor, hd]; rfl, fun n hn => absurd hn (halias n)⟩
  unfold step
  dsimp only
  split
  · rename_i hkind
    exact .ok (hsame _ rfl (by rw [hkind]; rfl) (by simp [hkind]))
  · rename_i hkind
    exact .ok (hsame _ rfl (by rw [hkind]; rfl) (by simp [hkind]))
  · rename_i hkind
    exact .ok (hsame _ rfl (by rw [hkind]; rfl) (by simp [hkind]))
  · rename_i hkind
    exact .ite (fun _ => .error) fun _ => .ok (hsame _ rfl (by rw [hkind]; rfl) (by simp [hkind]))
  · rename_i name hkind
    refine .map ((mem_names_of_aliased _ name e.line).mono fun n hn => ?_)
    rw [names_place, hkind]
    refine ⟨rfl, fun m hm => ?_⟩
    rwa [← EventKind.aliasOf.inj hm]
  · rename_i p text style hkind
    rw [hkind]
    exact (names_scalar _ p text style e.line).mono fun d hd => ⟨hd, by simp⟩
  · rename_i p hkind
    rw [hkind]
    exact (names_enter _ p _ _ e.line).mono fun d hd => ⟨hd, by simp⟩
  · rename_i p hkind
    rw [hkind]
    exact (names_enter _ p _ _ e.line).mono fun d hd => ⟨hd, by simp⟩
  · rename_i hkind
    exact .ok (hsame _ (names_leave _) (by rw [hkind]; rfl) (by simp [hkind]))
  · rename_i hkind
    exact .ok (hsame _ (names_leave _) (by rw [hkind]; rfl) (by simp [hkind]))

end Composition

/-! ## The events of a text -/

namespace EventStream

variable {α : Type} {f : α → Option (Nat × Nat) → Event → Outcome α} {es : EventStream}

/-- The machine is ready to read a text. -/
theorem ready_ofText (s : List Char) : Ready s (.ofText s) := by
  refine ⟨TokenStream.live_ofText s, ?_, List.forall_mem_nil _⟩
  rintro _ ⟨⟩
  exact ⟨rfl, List.forall_mem_nil _⟩

/-- What is to come of a text. -/
theorem weight_ofText (s : List Char) : (ofText s).weight = 20 * s.length + 8 := by
  change 4 * (1 + 0 + 5 * s.length + 1) + 0 + 0 = 20 * s.length + 8
  omega

/-- What is carried through an event, and through those behind it unless it is the last one. -/
theorem fold_succ (n : Nat) (es : EventStream) (a : α) : fold f (n + 1) es a =
    event es >>= fun r => f a r.2.tokens.version r.1 >>= fun b =>
      if r.1.kind == .streamEnd then .ok b else fold f n r.2 b := by
  rw [fold]
  cases event es with
  | error e => rfl
  | ok r =>
    cases hf : f a r.2.tokens.version r.1 with
    | error e => simp [bind, Except.bind, hf]
    | ok b => simp [bind, Except.bind, hf]

/-- The bound on the number of events does not matter, if it is wide enough. -/
theorem fold_eq_of_weight_lt (h : Ready s es) {m n : Nat} (hm : es.weight < m) (hn : es.weight < n)
    (a : α) : fold f m es a = fold f n es a := by
  induction m generalizing n es a with
  | zero => exact absurd hm (Nat.not_lt_zero _)
  | succ m ih =>
    obtain ⟨n, rfl⟩ := Nat.exists_eq_succ_of_ne_zero (Nat.ne_zero_of_lt hn)
    have hevent := answers_event h
    rw [fold_succ, fold_succ]
    cases heq : event es with
    | error e => rfl
    | ok r =>
      refine congrArg (f a r.2.tokens.version r.1 >>= ·) (funext fun b => ?_)
      split
      · rfl
      · rename_i hend
        rcases hevent r heq with ⟨hkind, -⟩ | hgives
        · exact absurd hkind (by simpa using hend)
        · have hlt := hgives.weight_lt
          exact ih hgives.ready (by omega) (by omega) b

/-- Every text is read to its end: with a wider bound nothing more is read. -/
theorem fold_ofText_eq (f : α → Option (Nat × Nat) → Event → Outcome α) (s : List Char) (a : α)
    {n : Nat} (hn : 20 * s.length + 40 ≤ n) : fold f n (.ofText s) a = foldEvents f s a := by
  have hweight := weight_ofText s
  exact fold_eq_of_weight_lt (ready_ofText s) (by omega) (by omega) a

/-- An event is carried through, and then those behind it unless it is the last one. -/
theorem fold_succ_eq_ok {n : Nat} {a b : α} : fold f (n + 1) es a = .ok b ↔
    ∃ e es' a', event es = .ok (e, es') ∧ f a es'.tokens.version e = .ok a' ∧
      if e.kind == .streamEnd then a' = b else fold f n es' a' = .ok b := by
  have hlast : ∀ (p : Prop) [Decidable p] (a' : α) (x : Outcome α),
      (if p then Except.ok a' else x) = .ok b ↔ if p then a' = b else x = .ok b := by
    intro p _ a' x
    split <;> simp
  rw [fold_succ]
  simp only [Text.bind_eq_ok, hlast]
  constructor
  · rintro ⟨⟨e, es'⟩, hevent, a', hstep, hrest⟩
    exact ⟨e, es', a', hevent, hstep, hrest⟩
  · rintro ⟨e, es', a', hevent, hstep, hrest⟩
    exact ⟨⟨e, es'⟩, hevent, a', hstep, hrest⟩

end EventStream

/-- Events are read from the text and composed, up to a state of reading and a composition before the
end of the text. -/
inductive Reads (s : List Char) : List Event → EventStream → Composition → Prop
  | start : Reads s [] (.ofText s) .start
  | next {events : List Event} {es es' : EventStream} {c d : Composition} {e : Event} :
      Reads s events es c → EventStream.event es = .ok (e, es') → e.kind ≠ .streamEnd →
      c.step es'.tokens.version e = .ok d → Reads s (events ++ [e]) es' d

namespace Reads

variable {events : List Event} {es : EventStream} {c d : Composition} {k : TokenKind} {n : Nat}

/-- The events that are read bear marks that are written in the text. -/
theorem ready (h : Reads s events es c) :
    EventStream.Ready s es ∧ ∀ e ∈ events, ∀ k ∈ e.kind.mark?, k.IsWritten s := by
  induction h with
  | start => exact ⟨EventStream.ready_ofText s, List.forall_mem_nil _⟩
  | next _ hevent hend _ ih =>
    rcases EventStream.answers_event ih.1 _ hevent with ⟨hkind, -⟩ | hgives
    · exact absurd hkind hend
    · exact ⟨hgives.ready, List.forall_mem_append.mpr
        ⟨ih.2, List.forall_mem_singleton.mpr hgives.written⟩⟩

/-- The names that aliases can stand for are those of the anchors before. -/
theorem exists_anchor_of_mem_names (h : Reads s events es c) {name : String} (hn : name ∈ c.names) :
    ∃ e ∈ events, e.kind.anchor? = some name := by
  induction h with
  | start => exact absurd hn (List.not_mem_nil)
  | @next events _ _ _ _ e _ _ _ hstep ih =>
    rw [(Composition.names_step _ _ _ _ hstep).1, List.mem_append, Option.mem_toList] at hn
    rcases hn with hanchor | hn
    · exact ⟨e, by simp, hanchor⟩
    · obtain ⟨e', he', hanchor⟩ := ih hn
      exact ⟨e', List.mem_append_left _ he', hanchor⟩

/-- An alias is read behind an event that bears an anchor of its name. -/
theorem exists_anchor_of_alias (h : Reads s events es c) {e : Event} (he : e ∈ events) {name : String}
    (halias : e.kind = .aliasOf name) : ∃ e' ∈ events, e'.kind.anchor? = some name := by
  induction h with
  | start => exact absurd he List.not_mem_nil
  | @next events _ _ _ _ e' hreads _ _ hstep ih =>
    rcases List.mem_append.mp he with he | he
    · obtain ⟨e'', he'', hanchor⟩ := ih he
      exact ⟨e'', List.mem_append_left _ he'', hanchor⟩
    · obtain rfl := List.mem_singleton.mp he
      obtain ⟨e'', he'', hanchor⟩ := hreads.exists_anchor_of_mem_names
        ((Composition.names_step _ _ _ _ hstep).2 name halias)
      exact ⟨e'', List.mem_append_left _ he'', hanchor⟩

/-- Where a text is read without a refusal, the events that are left are so, too, and the bound on their
number suffices for them. -/
theorem fold (h : Reads s events es c) (hfold : foldEvents Composition.step s .start = .ok d) :
    ∃ n, es.weight < n ∧ EventStream.fold Composition.step n es c = .ok d := by
  induction h with
  | start => exact ⟨_, by rw [EventStream.weight_ofText]; omega, hfold⟩
  | @next _ es es' _ _ e hreads hevent hend hstep ih =>
    obtain ⟨n, hn, hfold⟩ := ih
    obtain ⟨n, rfl⟩ := Nat.exists_eq_succ_of_ne_zero (Nat.ne_zero_of_lt hn)
    -- The event that is read next is the one that was read.
    obtain ⟨e', es'', c', hevent', hstep', hrest⟩ := EventStream.fold_succ_eq_ok.mp hfold
    obtain ⟨rfl, rfl⟩ := Prod.mk.inj (Except.ok.inj (hevent.symm.trans hevent'))
    obtain rfl := Except.ok.inj (hstep.symm.trans hstep')
    rw [if_neg (by simpa using hend)] at hrest
    rcases EventStream.answers_event hreads.ready.1 _ hevent with ⟨hkind, -⟩ | hgives
    · exact absurd hkind hend
    · have hlt : es'.weight < es.weight := hgives.weight_lt
      exact ⟨n, by omega, hrest⟩

/-- A mark among the tokens becomes that of an event, where the text is read without a refusal. -/
theorem exists_event_of_mem_marks (h : Reads s events es c) (hn : es.weight < n)
    (hfold : EventStream.fold Composition.step n es c = .ok d) (hk : k ∈ es.tokens.marks) :
    ∃ events' es' c', Reads s events' es' c' ∧ ∃ e ∈ events', e.kind.mark? = some k := by
  induction n generalizing events es c with
  | zero => exact absurd hn (Nat.not_lt_zero _)
  | succ n ih =>
    obtain ⟨e, es', c', hevent, hstep, hrest⟩ := EventStream.fold_succ_eq_ok.mp hfold
    rcases EventStream.answers_event h.ready.1 _ hevent with ⟨-, hnone⟩ | hgives
    · exact absurd hk (by simp [hnone])
    · rw [if_neg (by simpa using hgives.goesOn)] at hrest
      have hnext := h.next hevent hgives.goesOn hstep
      -- The mark is that of the event, or it is still among the tokens.
      rcases List.mem_append.mp (hgives.kept.mem hk) with hmark | hk
      · exact ⟨_, _, _, hnext, e, by simp, Option.mem_toList.mp hmark⟩
      · have hlt : es'.weight < es.weight := hgives.weight_lt
        exact ih hnext (by omega) hrest hk

end Reads

/-! ## Marks that are recognised -/

/-- A mark is recognised in a text when, while events are read and composed, it is among the tokens that
were read or is borne by an event. -/
def Recognizes (s : List Char) (k : TokenKind) : Prop :=
  ∃ events es c, Reads s events es c ∧ (k ∈ es.tokens.marks ∨ ∃ e ∈ events, e.kind.mark? = some k)

/-- A mark that is recognised is written in the text. -/
theorem Recognizes.isWritten {k : TokenKind} (h : Recognizes s k) : k.IsWritten s := by
  obtain ⟨events, es, c, hreads, hk | ⟨e, he, hk⟩⟩ := h
  · obtain ⟨t, ht, rfl⟩ := List.mem_map.mp (List.mem_filter.mp hk).1
    exact hreads.ready.1.live.sound.written t ht
  · exact hreads.ready.2 e he k hk

/-- In a text that is read without a refusal, an anchor or an alias is only recognised where an anchor of
its name is. -/
theorem Recognizes.anchor {name : String} {d : Composition}
    (h : Recognizes s (.anchor name) ∨ Recognizes s (.aliasOf name))
    (hfold : foldEvents Composition.step s .start = .ok d) : Recognizes s (.anchor name) := by
  rcases h with h | h
  · exact h
  · obtain ⟨events, es, c, hreads, hmark⟩ := h
    -- The alias is that of an event, now or later.
    obtain ⟨events', es', c', hreads', e, he, hk⟩ : ∃ events' es' c', Reads s events' es' c' ∧
        ∃ e ∈ events', e.kind.mark? = some (.aliasOf name) := by
      rcases hmark with hk | hevent
      · obtain ⟨n, hn, hrest⟩ := hreads.fold hfold
        exact hreads.exists_event_of_mem_marks hn hrest hk
      · exact ⟨events, es, c, hreads, hevent⟩
    have halias : e.kind = .aliasOf name := EventKind.mark?_eq_aliasOf.mp hk
    obtain ⟨e', he', hanchor⟩ := hreads'.exists_anchor_of_alias he halias
    exact ⟨events', es', c', hreads', Or.inr ⟨e', he', EventKind.mark?_eq_anchor.mpr hanchor⟩⟩

end StylesheetTrace.Yaml
