import StylesheetTrace.Proofs.Yaml.Step

/-!
# Events and the marks that they bear

Each state of the machine reads one event, whose mark is the one that is taken from the tokens, and makes
less of what is to come; at the end of the text all marks were passed on to events (`answers_event`).
-/

namespace StylesheetTrace.Yaml

open TokenStream Expecting

variable {s : List Char}

namespace EventStream

variable {es : EventStream}

section

variable {m used : List TokenKind} {b n : Nat} {now : Expecting} {after : List Expecting}
  {kind : TokenKind} {e : Event}

/-! ## Nodes -/

/-- An anchor and a tag are taken, of which only the anchor is a mark. -/
theorem runs_rawProperties (h : Passing s m [] b now after es) :
    Runs rawProperties es fun r es' => Passing s m (r.1.toList.map .anchor) b now after es' := by
  refine (runs_peek h).bind fun t es₁ ⟨h₁, hknown, _⟩ => ?_
  split
  · rename_i name line _
    refine (runs_takeMoving h₁ hknown (by simp) (by simp)).bind fun _ es₂ ⟨_, _, h₂⟩ => ?_
    refine (runs_peek (h₂.mono (Nat.sub_le b 1))).bind fun u es₃ ⟨h₃, hknown, _⟩ => ?_
    split
    · refine (runs_take h₃ hknown (by simp) (by simp)).bind fun _ es₄ ⟨_, _, h₄⟩ => .pure ?_
      exact h₄.mono (Nat.sub_le b 1)
    · exact .pure h₃
  · refine (runs_takeFirstTag h₁ hknown).bind fun _ es₂ h₂ => ?_
    refine (runs_peek h₂).bind fun u es₃ ⟨h₃, hknown, _⟩ => ?_
    split
    · refine (runs_take h₃ hknown (by simp) (by simp)).bind fun _ es₄ ⟨_, _, h₄⟩ => .pure ?_
      exact h₄.mono (Nat.sub_le b 1)
    · exact .pure h₃
  · exact .pure h₁

/-- The meaning of a handle is looked up. -/
theorem runs_fullTag (h : Passing s m used b now after es) (t : TagText) (line : Nat) :
    Runs (fullTag t line) es fun _ es' => Passing s m used b now after es' := by
  unfold fullTag
  dsimp only
  split
  · exact .pure h
  · refine .get_bind ?_
    split
    · exact .pure h
    · exact .refuse

/-- What is said of a node is taken. -/
theorem runs_properties (h : Passing s m [] b now after es) :
    Runs properties es fun r es' => Passing s m (r.1.anchor.toList.map .anchor) b now after es' := by
  refine (runs_rawProperties h).bind fun ⟨anchor, tag, lines⟩ es' h' => ?_
  dsimp only
  split
  · exact .pure h'
  · exact (runs_fullTag h' _ _).bind fun _ _ h'' => .pure h''

/-- The beginning of a node is read. -/
theorem runs_node (h : Passing s m [] b now after es) (block indentless : Bool)
    (hn : 4 * b + indentless.toNat + load after < n) :
    Runs (node block indentless) es (Gives s m n) := by
  refine (runs_peek h).bind fun t es₁ ⟨h₁, hknown, _⟩ => ?_
  split
  · refine (runs_take h₁ hknown (by simp) (by simp)).bind fun _ es₂ ⟨_, hb, h₂⟩ => ?_
    exact h₂.goBack rfl (by simp) (by omega)
  · refine (runs_properties h₁).bind fun ⟨p, first?⟩ es₂ h₂ => ?_
    refine (runs_peek h₂).bind fun u es₃ ⟨h₃, hknown, _⟩ => ?_
    dsimp only at h₃ ⊢
    have hmark : p.anchor.toList.map TokenKind.anchor = (p.anchor.map TokenKind.anchor).toList := by
      cases p.anchor <;> rfl
    rw [hmark] at h₃
    -- A collection begins with the token that was looked at.
    have hbegin : ∀ (kind : EventKind) (next : Expecting) (line : Nat) (es₄ : EventStream),
        Passing s m (p.anchor.map TokenKind.anchor).toList b now after es₄ →
        kind.mark? = p.anchor.map TokenKind.anchor → kind ≠ .streamEnd →
        (∀ k, next.opening? = some k → Known k es₄.tokens) → next.rank ≤ indentless.toNat →
        Runs (EventStream.goTo next >>= fun _ => (Pure.pure ⟨kind, line⟩ : Step Event)) es₄
          (Gives s m n) := by
      intro kind next line es₄ h₄ hkind hend hopening hrank
      have hle := rank_le { es₄ with state := next }
      refine .modify_bind (.pure ((h₄.goTo next).gives (by rw [hkind]) hend hopening ?_))
      dsimp only at hle
      omega
    split
    · rename_i hkind
      rw [hkind] at hknown
      refine (runs_take h₃ hknown (by simp) (by simp)).bind fun _ es₄ ⟨_, hb, h₄⟩ => ?_
      refine h₄.goBack ?_ (by simp) (by omega)
      exact List.append_nil _
    · rename_i hkind
      exact hbegin _ _ _ _ h₃ rfl (by simp) (by rintro _ ⟨⟩; exact hkind ▸ hknown) (Nat.zero_le _)
    · rename_i hkind
      exact hbegin _ _ _ _ h₃ rfl (by simp) (by rintro _ ⟨⟩; exact hkind ▸ hknown) (Nat.zero_le _)
    · refine .ite (fun hentry => ?_) fun _ => .ite (fun hkind => ?_) fun _ =>
        .ite (fun hkind => ?_) fun _ => .ite (fun _ => ?_) fun _ => .refuse
      · have hindentless : Expecting.indentlessEntry.rank ≤ indentless.toNat := by
          rw [Bool.and_eq_true] at hentry
          rw [hentry.1]
          exact le_rfl
        refine .ite (fun _ => ?_) fun _ => ?_
        · exact (runs_annotate h₃ _).bind fun _ _ h₄ =>
            hbegin _ _ _ _ h₄.1 rfl (by simp) (by rintro _ ⟨⟩) hindentless
        · exact hbegin _ _ _ _ h₃ rfl (by simp) (by rintro _ ⟨⟩) hindentless
      · rw [Bool.and_eq_true, beq_iff_eq] at hkind
        exact hbegin _ _ _ _ h₃ rfl (by simp) (by rintro _ ⟨⟩; exact hkind.2 ▸ hknown) (Nat.zero_le _)
      · rw [Bool.and_eq_true, beq_iff_eq] at hkind
        exact hbegin _ _ _ _ h₃ rfl (by simp) (by rintro _ ⟨⟩; exact hkind.2 ▸ hknown) (Nat.zero_le _)
      · exact h₃.goBack rfl (by simp) (by omega)

/-- A node or what stands for it where it is left out. -/
theorem runs_optionalNode (h : Passing s m [] b now after es) (absent : TokenKind → Bool) (line : Nat)
    {next : Expecting} (hnext : next.opening? = none) (block indentless : Bool)
    (hn : 4 * b + (indentless.toNat + next.rank) + load after < n) :
    Runs (optionalNode absent line next (node block indentless)) es (Gives s m n) := by
  refine (runs_peek h).bind fun t es₁ ⟨h₁, _, _⟩ => .ite (fun _ => ?_) fun _ => ?_
  · refine .modify_bind (.pure ((h₁.goTo next).gives_of_rank rfl (by simp [empty]) hnext ?_))
    omega
  · refine .modify_bind (runs_node (h₁.goToAfterwards next hnext) block indentless ?_)
    simp only [load, List.map_cons, List.sum_cons] at hn ⊢
    omega

/-- A known token is taken, and behind it a node is read or what stands for it: the token pays for as many
events as come in a row without one. -/
theorem runs_part (h : Passing s m [] b now after es) (hk : Known kind es.tokens)
    (hmark : kind.marks = []) (hcomment : ∀ c, kind ≠ .comment c) (hend : kind ≠ .streamEnd)
    (absent : TokenKind → Bool) (line : Token → Nat) {next : Expecting} (hnext : next.opening? = none)
    (block indentless : Bool) (hrank : indentless.toNat + next.rank < 4) (hn : 4 * b + load after ≤ n) :
    Runs (takeMoving >>= fun t => optionalNode absent (line t) next (node block indentless)) es
      (Gives s m n) := by
  refine (runs_takeMoving h hk hcomment hend).bind fun t es' ⟨_, hb, h'⟩ => ?_
  rw [hmark] at h'
  exact runs_optionalNode h' absent (line t) hnext block indentless (by omega)

/-- A collection ends. -/
theorem runs_close (h : Passing s m [] b now after es) {kind : EventKind} (hkind : kind.mark? = none)
    (hend : kind ≠ .streamEnd) (line : Nat) (hn : 4 * b + load after < n) :
    Runs (close kind line) es (Gives s m n) :=
  h.goBack (by rw [hkind]; rfl) hend hn

/-! ## Documents -/

/-- Declarations are taken. -/
theorem runs_directives (h : Passing s m [] b now after es) (k : Nat) (found : Declared) :
    Runs (directives k found) es fun _ es' => Passing s m [] b now after es' := by
  induction k generalizing es found with
  | zero => exact .pure h
  | succ k ih =>
    refine (runs_peek h).bind fun t es₁ ⟨h₁, hknown, _⟩ => ?_
    split
    · refine (runs_take h₁ hknown (by simp) (by simp)).bind fun _ es₂ ⟨_, _, h₂⟩ => ?_
      replace h₂ := h₂.mono (Nat.sub_le b 1)
      split
      · exact .ite (fun _ => .refuse) fun _ => .ite (fun _ => .refuse) fun _ => ih h₂ _
      · exact .ite (fun _ => .refuse) fun _ => ih h₂ _
      · exact ih h₂ _
    · exact .pure h₁

/-- The declarations before a document are taken. -/
theorem runs_declaredHandles (h : Passing s m [] b now after es) :
    Runs declaredHandles es fun _ es' => Passing s m [] b now after es' := by
  refine .get_bind ((runs_directives h _ _).bind fun found es₁ h₁ => ?_)
  split
  · exact Ensures.error
  · exact .pure h₁

/-- The ends of documents are taken. -/
theorem runs_skipEnds (h : Passing s m [] b now after es) (k : Nat) :
    Runs (skipEnds k) es fun _ es' => Passing s m [] b now after es' := by
  induction k generalizing es with
  | zero => exact .pure h
  | succ k ih =>
    refine (runs_peek h).bind fun t es₁ ⟨h₁, hknown, _⟩ => ?_
    split
    · rename_i hkind
      refine (runs_take h₁ (hkind ▸ hknown) (by simp) (by simp)).bind fun _ es₂ ⟨_, _, h₂⟩ => ?_
      exact ih (h₂.mono (Nat.sub_le b 1))
    · exact .pure h₁

/-- The next event is the end of the text, and all marks were passed on; or it is another one. -/
def Answers (s : List Char) (m : List TokenKind) (n : Nat) (e : Event) (es : EventStream) : Prop :=
  (e.kind = .streamEnd ∧ m = []) ∨ Gives s m n e es

/-- Where the end is next, there are no marks. -/
theorem Passing.marks_eq_nil (h : Passing s m [] b now after es) (hk : Known .streamEnd es.tokens) :
    m = [] := by
  obtain ⟨rest, hkinds⟩ := List.head?_eq_some_iff.mp hk.head
  have hmarks : es.tokens.marks = [] := by
    rcases h.live.stage with ho | he
    · exact absurd (hkinds ▸ List.mem_cons_self) ho.goesOn
    · -- Behind the end there are no marks, and it is the first token.
      have horder := he.order
      rw [hkinds] at horder
      rw [TokenStream.marks, hkinds, List.filter_cons_of_neg (by simp [TokenKind.isMark]),
        List.filter_eq_nil_iff]
      exact fun k hmem => by simp [(List.pairwise_cons.mp horder).1 k hmem rfl]
  exact List.prefix_nil.mp (hmarks ▸ h.kept)

/-- What handles stand for changes. -/
theorem Passing.withHandles (h : Passing s m used b now after es) (handles : List (String × String)) :
    Passing s m used b now after { es with handles } :=
  ⟨h.live, h.kept, h.written, h.pending_le, h.state, h.afterwards, h.resumable⟩

/-- A document begins with its separator, or the text ends. -/
theorem runs_document (h : Passing s m [] b now after es)
    (hn : 4 * b + load after ≤ n) : Runs document es (Answers s m n) := by
  refine .get_bind ((runs_skipEnds h _).bind fun _ es₁ h₁ => ?_)
  -- Behind the ends of documents comes the end of the text or the beginning of a document.
  refine (runs_peek h₁).bind fun t es₂ ⟨h₂, hknown, _⟩ => .ite (fun hend => ?_) fun _ => ?_
  · rw [beq_iff_eq] at hend
    exact .pure (Or.inl ⟨rfl, h₂.marks_eq_nil (hend ▸ hknown)⟩)
  · refine (runs_declaredHandles h₂).bind fun declared es₃ h₃ => ?_
    refine (runs_peek h₃).bind fun u es₄ ⟨h₄, hknown, _⟩ => .ite (fun _ => .refuse) fun hstart => ?_
    simp only [bne_iff_ne, ne_eq, not_not] at hstart
    refine (runs_take h₄ (hstart ▸ hknown) (by simp) (by simp)).bind fun _ es₅ ⟨_, hb, h₅⟩ => ?_
    have h₆ := ((h₅.withHandles (declared ++ defaultHandles)).goToAfterwards
      .documentEnd rfl).goTo .documentContent
    refine .modify_bind (.modify_bind (.modify_bind (.pure (Or.inr ?_))))
    refine h₆.gives_of_rank rfl (by simp) rfl ?_
    simp only [load, List.map_cons, List.sum_cons, Expecting.rank] at hn ⊢
    omega

/-- A document begins, or the text ends. -/
theorem runs_implicitDocument (h : Passing s m [] b now after es)
    (hn : 4 * b + 2 + load after < n) : Runs implicitDocument es (Answers s m n) := by
  refine (runs_peek h).bind fun t es₁ ⟨h₁, _, _⟩ => ?_
  split
  · exact runs_document h₁ (by omega)
  · exact runs_document h₁ (by omega)
  · exact runs_document h₁ (by omega)
  · have h₂ := ((h₁.withHandles defaultHandles).goToAfterwards .documentEnd rfl).goTo
      .blockNode
    refine .modify_bind (.modify_bind (.modify_bind (.pure (Or.inr ?_))))
    refine h₂.gives_of_rank rfl (by simp) rfl ?_
    simp only [load, List.map_cons, List.sum_cons, Expecting.rank] at hn ⊢
    omega

/-- The content of a document begins, or is left out. -/
theorem runs_documentContent (h : Passing s m [] b now after es) (hn : 4 * b + load after < n) :
    Runs documentContent es (Gives s m n) := by
  refine (runs_peek h).bind fun t es₁ ⟨h₁, _, _⟩ => ?_
  have hempty := h₁.goBack (e := empty t.line) rfl (by simp [empty]) hn
  split
  · exact hempty
  · exact hempty
  · exact hempty
  · exact hempty
  · exact runs_node h₁ true false hn

/-- A document ends. -/
theorem runs_documentEnd (h : Passing s m [] b now after es) (hn : 4 * b + load after < n) :
    Runs documentEnd es (Gives s m n) := by
  refine (runs_peek h).bind fun t es₁ ⟨h₁, hknown, _⟩ => .ite (fun hend => ?_) fun _ => ?_
  · rw [beq_iff_eq] at hend
    refine (runs_take h₁ (hend ▸ hknown) (by simp) (by simp)).bind fun _ es₂ ⟨_, hb, h₂⟩ => ?_
    refine (runs_peek h₂).bind fun u es₃ ⟨h₃, _, _⟩ => .ite (fun _ => ?_) fun _ => ?_
    · exact Runs.refuse.bind (p := fun _ _ => False) fun _ _ h => h.elim
    · have hrank : (if es₃.tokens.old then Expecting.document else .implicitDocument).rank ≤ 3 := by
        split <;> decide
      refine .get_bind (.modify_bind (.pure ((h₃.goTo _).gives_of_rank rfl (by simp) ?_ (by omega))))
      split <;> rfl
  · refine .modify_bind (.pure ((h₁.goTo _).gives_of_rank rfl (by simp) rfl ?_))
    exact hn

/-! ## Block collections -/

/-- An entry of a block sequence is read, or its end. -/
theorem runs_sequenceEntry (h : Passing s m [] b now after es) (hn : 4 * b + load after ≤ n) :
    Runs sequenceEntry es (Gives s m n) := by
  refine (runs_peek h).bind fun t es₁ ⟨h₁, hknown, _⟩ => ?_
  split
  · rename_i hkind
    exact runs_part h₁ (hkind ▸ hknown) rfl (by simp) (by simp) _ _ rfl _ _ (by decide) hn
  · rename_i hkind
    refine (runs_take h₁ (hkind ▸ hknown) (by simp) (by simp)).bind fun _ es₂ ⟨_, hb, h₂⟩ => ?_
    exact runs_close h₂ rfl (by simp) _ (by omega)
  · exact .refuse

/-- An entry of a sequence that is not indented is read, or its end. -/
theorem runs_indentlessEntry (h : Passing s m [] b now after es) (hn : 4 * b + load after < n) :
    Runs indentlessEntry es (Gives s m n) := by
  refine (runs_peek h).bind fun t es₁ ⟨h₁, hknown, _⟩ => ?_
  split
  · rename_i hkind
    exact runs_part h₁ (hkind ▸ hknown) rfl (by simp) (by simp) _ _ rfl _ _ (by decide) hn.le
  · exact runs_close h₁ rfl (by simp) _ hn

/-- A key of a block mapping is read, or its end. Where a value stands without its key, nothing is
taken, but the value is next. -/
theorem runs_mappingKey (h : Passing s m [] b now after es) (hn : 4 * b + load after < n) :
    Runs mappingKey es (Gives s m n) := by
  refine (runs_peek h).bind fun t es₁ ⟨h₁, hknown, _⟩ => ?_
  split
  · rename_i hkind
    exact runs_part h₁ (hkind ▸ hknown) rfl (by simp) (by simp) _ _ rfl _ _ (by decide) hn.le
  · rename_i hkind
    refine (runs_takeMoving h₁ (hkind ▸ hknown) (by simp) (by simp)).bind fun _ es₂ ⟨_, hb, h₂⟩ => ?_
    exact runs_close h₂ rfl (by simp) _ (by omega)
  · refine .get_bind (.ite (fun hvalue => ?_) fun _ => .refuse)
    rw [Bool.and_eq_true, beq_iff_eq] at hvalue
    refine .modify_bind (.pure ((h₁.goTo .mappingValue).gives rfl (by simp [empty]) (by rintro _ ⟨⟩) ?_))
    have hrank : rank { es₁ with state := .mappingValue } = 0 := if_pos ⟨rfl, hvalue.1 ▸ hknown⟩
    omega

/-- The line of a value that is left out is looked up. -/
theorem runs_absentLine (h : Passing s m [] b now after es) (t : Token) (kept : Option Comments) :
    Runs (absentLine t kept) es fun _ es' => Passing s m [] b now after es' := by
  refine .ite (fun _ => .pure h) fun _ => (runs_peek h).bind fun u es₁ ⟨h₁, _, _⟩ => ?_
  refine .ite (fun _ => ?_) fun _ => ?_
  · exact (runs_annotate h₁ _).bind fun _ _ h₂ => .pure h₂.1
  · exact .pure h₁

/-- Behind the colon of a block mapping, the value is read or left out. Whether the comments of the colon
stay or move on does not matter for what follows. -/
theorem runs_valueContent (h : Passing s m [] b now after es) (t : Token) (kept : Option Comments)
    (hn : 4 * b + 2 + load after < n) :
    Runs (do
      if endsPart (← peek).kind then
        EventStream.goTo .mappingKey
        pure (empty (← absentLine t kept))
      else
        EventStream.goToAfterwards .mappingKey
        node true true) es (Gives s m n) := by
  refine (runs_peek h).bind fun u es₁ ⟨h₁, _, _⟩ => .ite (fun _ => ?_) fun _ => ?_
  · refine .modify_bind ((runs_absentLine (h₁.goTo .mappingKey) t kept).bind fun _ _ h₂ => .pure ?_)
    refine h₂.gives_of_rank rfl (by simp [empty]) rfl ?_
    simp only [Expecting.rank]
    omega
  · refine .modify_bind (runs_node (h₁.goToAfterwards _ rfl) _ _ ?_)
    simp only [load, List.map_cons, List.sum_cons, Expecting.rank, Bool.toNat_true] at hn ⊢
    omega

/-- A value of a block mapping is read. -/
theorem runs_mappingValue (h : Passing s m [] b now after es)
    (hn : (4 * b + load after ≤ n ∧ Known .value es.tokens) ∨ 4 * b + 1 + load after < n) :
    Runs mappingValue es (Gives s m n) := by
  refine (runs_peek h).bind fun t es₁ ⟨h₁, hknown, hsame⟩ => .ite (fun hkind => ?_) fun hkind => ?_
  · rw [beq_iff_eq] at hkind
    refine (runs_take h₁ (hkind ▸ hknown) (by simp) (by simp)).bind fun u es₂ ⟨_, hb, h₂⟩ => ?_
    -- The token that was taken pays for the key that comes next.
    have hpays : 4 * (b - 1) + 2 + load after < n := by
      rcases hn with ⟨hn, -⟩ | hn
      · omega
      · omega
    refine (runs_peek h₂).bind fun v es₃ ⟨h₃, _, _⟩ => .ite (fun _ => ?_) fun _ => ?_
    · exact runs_valueContent h₃ u _ hpays
    · exact (runs_moveComments h₃ u _).bind fun kept es₄ h₄ => runs_valueContent h₄ u kept hpays
  · -- Another token is next, so that the value was not known.
    rcases hn with ⟨-, hvalue⟩ | hn
    · exact absurd (beq_iff_eq.mpr (hsame .value (by simp) hvalue)) hkind
    · refine .modify_bind ((runs_peek (h₁.goTo .mappingKey)).bind fun _ _ ⟨h₂, _, _⟩ => .pure ?_)
      exact h₂.gives_of_rank rfl (by simp [empty]) rfl hn

/-! ## Flow collections -/

/-- An entry of a flow sequence is read, or its end. -/
theorem runs_flowSequenceEntry (h : Passing s m [] b now after es)
    (hn : (4 * b + load after ≤ n ∧ Known .flowSequenceEnd es.tokens) ∨ 4 * b + load after < n) :
    Runs flowSequenceEntry es (Gives s m n) := by
  refine (runs_peek h).bind fun t es₁ ⟨h₁, hknown, hsame⟩ => ?_
  have hstrict : t.kind ≠ .flowSequenceEnd → 4 * b + load after < n := fun hkind =>
    hn.elim (fun hn => absurd (hsame _ (by simp) hn.2) hkind) id
  split
  · rename_i hkind
    refine (runs_take h₁ (hkind ▸ hknown) (by simp) (by simp)).bind fun _ es₂ ⟨_, hb, h₂⟩ => ?_
    exact runs_close h₂ rfl (by simp) _ (by omega)
  · rename_i hkind
    have hn := hstrict (by simp [hkind])
    have hle := rank_le { es₁ with state := .pairKey }
    refine .modify_bind (.pure ((h₁.goTo .pairKey).gives rfl (by simp) ?_ ?_))
    · rintro _ ⟨⟩
      exact hkind ▸ hknown
    · simp only [Expecting.rank] at hle
      omega
  · rename_i hkind _
    have hn := hstrict hkind
    refine .modify_bind (runs_node (h₁.goToAfterwards _ rfl) _ _ ?_)
    simp only [load, List.map_cons, List.sum_cons, Expecting.rank, Bool.toNat_false] at hn ⊢
    omega

/-- A comma and an entry of a flow sequence are read, or its end. -/
theorem runs_flowSequenceNext (h : Passing s m [] b now after es) (hn : 4 * b + load after ≤ n) :
    Runs flowSequenceNext es (Gives s m n) := by
  refine (runs_peek h).bind fun t es₁ ⟨h₁, hknown, _⟩ => ?_
  split
  · rename_i hkind
    refine .ite (fun hentry => absurd hentry (by simp [hkind])) fun _ => ?_
    exact runs_flowSequenceEntry h₁ (Or.inl ⟨hn, hkind ▸ hknown⟩)
  · rename_i hkind
    refine .ite (fun _ => ?_) fun hentry => absurd (by simp [hkind]) hentry
    refine (runs_take h₁ (hkind ▸ hknown) (by simp) (by simp)).bind fun _ es₂ ⟨_, hb, h₂⟩ => ?_
    exact runs_flowSequenceEntry h₂ (Or.inr (by omega))
  · exact .refuse

/-- The key of a pair is read. -/
theorem runs_pairKey (h : Passing s m [] b now after es) (hk : Known .key es.tokens)
    (hn : 4 * b + load after ≤ n) : Runs pairKey es (Gives s m n) := by
  exact runs_part h hk rfl (by simp) (by simp) _ _ rfl _ _ (by decide) hn

/-- The value of a pair is read. -/
theorem runs_pairValue (h : Passing s m [] b now after es) (hn : 4 * b + 1 + load after < n) :
    Runs pairValue es (Gives s m n) := by
  refine (runs_peek h).bind fun t es₁ ⟨h₁, hknown, _⟩ => .ite (fun hkind => ?_) fun _ => ?_
  · rw [beq_iff_eq] at hkind
    exact runs_part h₁ (hkind ▸ hknown) rfl (by simp) (by simp) _ _ rfl _ _ (by decide) (by omega)
  · exact .modify_bind (.pure ((h₁.goTo .pairEnd).gives_of_rank rfl (by simp [empty]) rfl hn))

/-- A pair ends. -/
theorem runs_pairEnd (h : Passing s m [] b now after es) (hn : 4 * b + load after < n) :
    Runs pairEnd es (Gives s m n) :=
  .modify_bind ((runs_glance (h.goTo .flowSequenceNext)).bind fun _ _ ⟨h₁, _, _⟩ =>
    .pure (h₁.gives_of_rank rfl (by simp) rfl hn))

/-- A key of a flow mapping is read, or its end. -/
theorem runs_flowMappingKey (h : Passing s m [] b now after es)
    (hn : (4 * b + load after ≤ n ∧ Known .flowMappingEnd es.tokens) ∨ 4 * b + 1 + load after < n) :
    Runs flowMappingKey es (Gives s m n) := by
  refine (runs_peek h).bind fun t es₁ ⟨h₁, hknown, hsame⟩ => ?_
  have hstrict : t.kind ≠ .flowMappingEnd → 4 * b + 1 + load after < n := fun hkind =>
    hn.elim (fun hn => absurd (hsame _ (by simp) hn.2) hkind) id
  split
  · rename_i hkind
    refine (runs_take h₁ (hkind ▸ hknown) (by simp) (by simp)).bind fun _ es₂ ⟨_, hb, h₂⟩ => ?_
    exact runs_close h₂ rfl (by simp) _ (by omega)
  · rename_i hkind
    have hn := hstrict (by simp [hkind])
    exact runs_part h₁ (hkind ▸ hknown) rfl (by simp) (by simp) _ _ rfl _ _ (by decide) (by omega)
  · rename_i hkind _
    have hn := hstrict hkind
    refine .get_bind (.ite (fun _ => ?_) fun _ => ?_)
    · exact .modify_bind (.pure ((h₁.goTo .flowMappingValue).gives_of_rank rfl (by simp [empty]) rfl hn))
    · refine .modify_bind (runs_node (h₁.goToAfterwards _ rfl) _ _ ?_)
      simp only [load, List.map_cons, List.sum_cons, Expecting.rank, Bool.toNat_false] at hn ⊢
      omega

/-- A comma and a key of a flow mapping are read, or its end. -/
theorem runs_flowMappingNext (h : Passing s m [] b now after es) (hn : 4 * b + load after ≤ n) :
    Runs flowMappingNext es (Gives s m n) := by
  refine (runs_peek h).bind fun t es₁ ⟨h₁, hknown, _⟩ => ?_
  split
  · rename_i hkind
    refine .ite (fun hentry => absurd hentry (by simp [hkind])) fun _ => ?_
    exact runs_flowMappingKey h₁ (Or.inl ⟨hn, hkind ▸ hknown⟩)
  · rename_i hkind
    refine .ite (fun _ => ?_) fun hentry => absurd (by simp [hkind]) hentry
    refine (runs_take h₁ (hkind ▸ hknown) (by simp) (by simp)).bind fun _ es₂ ⟨_, hb, h₂⟩ => ?_
    exact runs_flowMappingKey h₂ (Or.inr (by omega))
  · exact .refuse

/-- A value of a flow mapping is read. -/
theorem runs_flowMappingValue (h : Passing s m [] b now after es) (hn : 4 * b + load after < n) :
    Runs flowMappingValue es (Gives s m n) := by
  refine (runs_peek h).bind fun t es₁ ⟨h₁, hknown, _⟩ => .ite (fun hkind => ?_) fun _ => ?_
  · rw [beq_iff_eq] at hkind
    exact runs_part h₁ (hkind ▸ hknown) rfl (by simp) (by simp) _ _ rfl _ _ (by decide) hn.le
  · exact .modify_bind (.pure ((h₁.goTo .flowMappingNext).gives_of_rank rfl (by simp [empty]) rfl hn))

/-- The value of a key that has none is left out. -/
theorem runs_flowMappingEmptyValue (h : Passing s m [] b now after es) (hn : 4 * b + load after < n) :
    Runs flowMappingEmptyValue es (Gives s m n) :=
  .modify_bind ((runs_glance (h.goTo .flowMappingNext)).bind fun _ _ ⟨h₁, _, _⟩ =>
    .pure (h₁.gives_of_rank rfl (by simp [empty]) rfl hn))

/-! ## The machine -/

/-- The token that begins a collection is taken. -/
theorem runs_opened (h : Passing s m [] b now after es) (hk : Known kind es.tokens)
    (hmark : kind.marks = []) (hcomment : ∀ c, kind ≠ .comment c) (hend : kind ≠ .streamEnd)
    {content : Step Event}
    (hcontent : ∀ es', 0 < b → Passing s m [] (b - 1) now after es' → Runs content es' (Gives s m n)) :
    Runs (opened content) es (Gives s m n) :=
  (runs_take h hk hcomment hend).bind fun _ es' ⟨_, hb, h'⟩ => hcontent es' hb (by rwa [hmark] at h')

end

/-- The next event bears what was taken of the marks, and less is to come, unless it is the end of the
text. -/
theorem answers_event (h : Ready s es) : Runs event es (Answers s es.tokens.marks es.weight) := by
  have hstart : Passing s es.tokens.marks [] es.tokens.pending es.state es.afterwards es :=
    ⟨h.live, List.prefix_refl _, List.forall_mem_nil _, le_rfl, rfl, rfl, h.resumable⟩
  have hweight : ∀ {e} k, es.state = e → e ≠ .mappingValue → e.rank = k →
      es.weight = 4 * es.tokens.pending + k + load es.afterwards := by
    rintro _ k rfl hne rfl
    rw [weight, rank, if_neg fun h => hne h.1]
  have hgives : ∀ {x}, Runs x es (Gives s es.tokens.marks es.weight) →
      Runs x es (Answers s es.tokens.marks es.weight) := fun hx => hx.mono fun _ _ => Or.inr
  have hopened : ∀ (kind : TokenKind) {content : Step Event}, es.state.opening? = some kind →
      kind.marks = [] → (∀ c, kind ≠ .comment c) → kind ≠ .streamEnd →
      (∀ es', 0 < es.tokens.pending → Passing s es.tokens.marks [] (es.tokens.pending - 1) es.state
        es.afterwards es' → Runs content es' (Gives s es.tokens.marks es.weight)) →
      Runs (opened content) es (Answers s es.tokens.marks es.weight) :=
    fun _ _ hopening hmark hcomment hend hcontent =>
      hgives (runs_opened hstart (h.opening _ hopening) hmark hcomment hend hcontent)
  refine .get_bind ?_
  -- In each state, what is taken or the rank of the state pays for what comes next.
  cases hstate : es.state with
  | stream =>
    have hw := hweight 0 hstate (by simp) rfl
    have htake := runs_takeMoving hstart (h.opening .streamStart (by rw [hstate]; rfl)) (by simp) (by simp)
    refine hgives (htake.bind ?_)
    rintro t es₁ ⟨-, hb, h₁⟩
    refine .modify_bind (.pure ((h₁.goTo .implicitDocument).gives_of_rank rfl (by simp) rfl ?_))
    simp only [Expecting.rank]
    omega
  | implicitDocument =>
    have hw := hweight 3 hstate (by simp) rfl
    exact runs_implicitDocument hstart (by omega)
  | document =>
    have hw := hweight 0 hstate (by simp) rfl
    exact runs_document hstart (by omega)
  | documentContent =>
    have hw := hweight 1 hstate (by simp) rfl
    exact hgives (runs_documentContent hstart (by omega))
  | documentEnd =>
    have hw := hweight 1 hstate (by simp) rfl
    exact hgives (runs_documentEnd hstart (by omega))
  | blockNode =>
    have hw := hweight 1 hstate (by simp) rfl
    exact hgives (runs_node hstart _ _ (by rw [Bool.toNat_false]; omega))
  | sequenceStart =>
    have hw := hweight 0 hstate (by simp) rfl
    exact hopened .blockSequenceStart (by rw [hstate]; rfl) rfl (by simp) (by simp)
      fun es' hb h' => runs_sequenceEntry h' (by omega)
  | sequenceEntry =>
    have hw := hweight 0 hstate (by simp) rfl
    exact hgives (runs_sequenceEntry hstart (by omega))
  | indentlessEntry =>
    have hw := hweight 1 hstate (by simp) rfl
    exact hgives (runs_indentlessEntry hstart (by omega))
  | mappingStart =>
    have hw := hweight 0 hstate (by simp) rfl
    exact hopened .blockMappingStart (by rw [hstate]; rfl) rfl (by simp) (by simp)
      fun es' hb h' => runs_mappingKey h' (by omega)
  | mappingKey =>
    have hw := hweight 1 hstate (by simp) rfl
    exact hgives (runs_mappingKey hstart (by omega))
  | mappingValue =>
    -- The state weighs nothing when the value is known to be next, which then is taken.
    refine hgives (runs_mappingValue hstart ?_)
    by_cases hvalue : Known .value es.tokens
    · exact Or.inl ⟨by rw [weight]; omega, hvalue⟩
    · refine Or.inr ?_
      rw [weight, rank, if_neg fun h => hvalue h.2, hstate]
      simp only [Expecting.rank]
      omega
  | flowSequenceStart =>
    have hw := hweight 0 hstate (by simp) rfl
    exact hopened .flowSequenceStart (by rw [hstate]; rfl) rfl (by simp) (by simp)
      fun es' hb h' => runs_flowSequenceEntry h' (Or.inr (by omega))
  | flowSequenceEntry =>
    have hw := hweight 1 hstate (by simp) rfl
    exact hgives (runs_flowSequenceEntry hstart (Or.inr (by omega)))
  | flowSequenceNext =>
    have hw := hweight 0 hstate (by simp) rfl
    exact hgives (runs_flowSequenceNext hstart (by omega))
  | pairKey =>
    have hw := hweight 0 hstate (by simp) rfl
    exact hgives (runs_pairKey hstart (h.opening .key (by rw [hstate]; rfl)) (by omega))
  | pairValue =>
    have hw := hweight 2 hstate (by simp) rfl
    exact hgives (runs_pairValue hstart (by omega))
  | pairEnd =>
    have hw := hweight 1 hstate (by simp) rfl
    exact hgives (runs_pairEnd hstart (by omega))
  | flowMappingStart =>
    have hw := hweight 0 hstate (by simp) rfl
    exact hopened .flowMappingStart (by rw [hstate]; rfl) rfl (by simp) (by simp)
      fun es' hb h' => runs_flowMappingKey h' (Or.inr (by omega))
  | flowMappingKey =>
    have hw := hweight 2 hstate (by simp) rfl
    exact hgives (runs_flowMappingKey hstart (Or.inr (by omega)))
  | flowMappingNext =>
    have hw := hweight 0 hstate (by simp) rfl
    exact hgives (runs_flowMappingNext hstart (by omega))
  | flowMappingValue =>
    have hw := hweight 1 hstate (by simp) rfl
    exact hgives (runs_flowMappingValue hstart (by omega))
  | flowMappingEmptyValue =>
    have hw := hweight 1 hstate (by simp) rfl
    exact hgives (runs_flowMappingEmptyValue hstart (by omega))

end EventStream

end StylesheetTrace.Yaml
