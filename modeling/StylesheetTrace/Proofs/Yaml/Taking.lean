import StylesheetTrace.Proofs.Yaml.Fetch

/-!
# Taking tokens

Before a token is looked at or taken, the stream is read on until its first token is known. The bounds
of these loops suffice for that (`later_ready`). A token that was looked at is the one that is taken
next, unless it is a comment, and no mark is lost (`taken_next`).
-/

namespace StylesheetTrace.Yaml

open Cursor

variable {s : List Char}

namespace TokenStream

variable {ts us vs : TokenStream} {kind : TokenKind}

/-! ## Later streams -/

/-- A stream of the text was read on, and perhaps comments were taken. -/
structure Later (s : List Char) (ts us : TokenStream) : Prop where
  /-- The stream is still one of the text. -/
  live : Live s us
  /-- No mark was taken. -/
  kept : ts.marks <+: us.marks
  /-- The first token is the same if it was known and no comment. -/
  known : ∀ kind, (∀ c, kind ≠ .comment c) → Known kind ts → Known kind us
  /-- No more tokens can come than before. -/
  pending_le : us.pending ≤ ts.pending

/-- Nothing was read. -/
theorem Live.later (h : Live s ts) : Later s ts ts :=
  ⟨h, List.prefix_refl _, fun _ _ hk => hk, le_rfl⟩

/-- Reading on twice. -/
theorem Later.trans (h : Later s ts us) (h' : Later s us vs) : Later s ts vs :=
  ⟨h'.live, h.kept.trans h'.kept, fun kind hc hk => h'.known kind hc (h.known kind hc hk),
    h'.pending_le.trans h.pending_le⟩

/-- Nothing was read, and nothing taken. -/
theorem Live.grown (h : Live s ts) : Grown s 0 ts ts :=
  ⟨h, List.prefix_refl _, fun _ hk => hk, le_rfl⟩

/-- Reading on without taking anything. -/
theorem Grown.later (h : Grown s 0 ts us) : Later s ts us :=
  ⟨h.live, h.kept, fun kind _ => h.known kind, h.pending_le⟩

/-- The first token is taken, which does not end the text and is no candidate for a key. -/
theorem Live.drop (h : Live s ts) {t : Token} {rest : List Token} (hqueue : ts.queue = t :: rest)
    (hend : t.kind ≠ .streamEnd) (hkeys : ∀ k ∈ ts.keys, ts.taken < k.2.number) :
    Live s ts.drop ∧ ts.drop.pending + 1 = ts.pending ∧
      ts.marks = t.kind.marks ++ ts.drop.marks := by
  have hdrop : ts.drop = { ts with queue := rest, taken := ts.taken + 1 } := by
    rw [TokenStream.drop, hqueue]
    rfl
  have hkinds : ts.kinds = t.kind :: rest.map Token.kind := by
    rw [kinds, hqueue]
    rfl
  rw [hdrop]
  refine ⟨⟨⟨h.sound.rest, h.sound.size, fun u hu => ?_, ?_⟩, ?_⟩, ?_, ?_⟩
  · exact h.sound.written u (hqueue ▸ List.mem_cons_of_mem t hu)
  · exact (hqueue ▸ h.sound.keyed).drop hkeys
  · rcases h.stage with ho | he
    · exact Or.inl ⟨fun hmem => ho.goesOn (hkinds ▸ List.mem_cons_of_mem _ hmem), ho.done⟩
    · refine Or.inr ?_
      have hmem := he.mem
      have horder := he.order
      rw [hkinds] at hmem horder
      exact ⟨he.done, he.rest, he.keys, (List.mem_cons.mp hmem).resolve_left (Ne.symm hend),
        (List.pairwise_cons.mp horder).2⟩
  · simp only [pending, hqueue, List.length_cons]
    omega
  · rw [marks, hkinds, List.filter_cons, TokenKind.marks]
    split
    · rfl
    · rfl

/-- A comment that is a token. -/
theorem kind_of_comment? {t : Token} {c : Comment} (h : t.comment? = some c) : t.kind = .comment c := by
  unfold Token.comment? at h
  split at h
  · rename_i d hd
    rw [hd, Option.some.inj h]
  · exact absurd h (by simp)

/-- A comment at the head of the stream is taken. -/
theorem later_dropComment (h : Live s ts) (passed : List Comment) :
    Later s ts (ts.dropComment passed).2 := by
  unfold dropComment
  split
  · rename_i c hcomment
    obtain ⟨t, ht, htc⟩ := Option.bind_eq_some_iff.mp hcomment
    obtain ⟨rest, hqueue⟩ := List.head?_eq_some_iff.mp ht
    have hkind := kind_of_comment? htc
    -- A comment is no candidate for a key.
    have hkeys : ∀ k ∈ ts.keys, ts.taken < k.2.number := by
      intro k hk
      obtain ⟨hle, u, hu, hnone⟩ := h.sound.keyed.token k hk
      refine lt_of_le_of_ne hle fun heq => ?_
      rw [← heq, Nat.sub_self, hqueue, List.getElem?_cons_zero] at hu
      obtain rfl := Option.some.inj hu
      exact absurd (htc.symm.trans hnone) (by simp)
    obtain ⟨hlive, hpending, hmarks⟩ := h.drop hqueue (by simp [hkind]) hkeys
    rw [hkind] at hmarks
    refine ⟨hlive, by rw [hmarks]; exact List.prefix_refl _, fun kind hc hk => ?_, hpending ▸ Nat.le_succ _⟩
    have hhead := hk.head
    rw [kinds, hqueue, List.map_cons, List.head?_cons, hkind] at hhead
    exact absurd (Option.some.inj hhead).symm (hc c)
  · exact h.later

/-! ## Reading until the first token is known -/

/-- No more has to be read where the first token is known, and otherwise the end was not reached. -/
theorem needsMore_spec (h : Live s ts) :
    Ensures ts.needsMore fun r => Later s ts r.2 ∧
      ((r.1 = false ∧ ∃ kind, Known kind r.2) ∨
        (r.1 = true ∧ Open ts ∧ Open r.2 ∧ r.2.cursor = ts.cursor)) := by
  unfold needsMore
  rcases h.stage with ho | he
  · rw [if_neg (by simp [ho.done])]
    split
    · exact .ok ⟨h.later, Or.inr ⟨rfl, ho, ho, rfl⟩⟩
    · rename_i hqueue
      refine .map ((dropStale_spec ts).mono ?_)
      rintro us ⟨keys, rfl, hkeys⟩
      have hturn := Turn.withKeys h.sound ho hkeys ts.keyAllowed
      refine ⟨(hturn.grown ho (Nat.zero_add _).le).later, ?_⟩
      cases hmin : (keys.map fun k => k.2.number).min? == some ts.taken with
      | true => exact Or.inr ⟨rfl, ho, hturn.isOpen, rfl⟩
      | false =>
        obtain ⟨t, rest, hcons⟩ := List.exists_cons_of_ne_nil (mt List.isEmpty_iff.mpr hqueue)
        refine Or.inl ⟨rfl, t.kind, by simp [kinds, hcons], fun k hk => ?_⟩
        refine lt_of_le_of_ne (hturn.sound.keyed.token k hk).1 fun heq => ?_
        -- The candidate would be the least one.
        refine absurd hmin (Bool.not_eq_false _ |>.mpr (beq_iff_eq.mpr ?_))
        rw [List.min?_eq_some_iff]
        refine ⟨List.mem_map.mpr ⟨k, hk, heq.symm⟩, fun n hn => ?_⟩
        obtain ⟨l, hl, rfl⟩ := List.mem_map.mp hn
        exact (hturn.sound.keyed.token l hl).1
  · -- The end of the text is a token that is there, and nothing is a candidate behind it.
    rw [if_pos he.done]
    obtain ⟨t, rest, hcons⟩ := List.exists_cons_of_ne_nil (List.ne_nil_of_mem he.mem)
    exact .ok ⟨h.later, Or.inl ⟨rfl, t, by simp [hcons], by simp [he.keys]⟩⟩

/-- A number of turns that suffices to reach the end. -/
def Enough (n : Nat) (ts : TokenStream) : Prop :=
  (if ts.done then 1 else ts.cursor.rest.length + 2) ≤ n

/-- The size of the text gives enough turns. -/
theorem Live.enough (h : Live s ts) : Enough ts.cursor.turns ts := by
  have hle := h.sound.rest.length_le
  unfold Enough turns
  rw [h.sound.size]
  split <;> omega

/-- One turn fewer is enough behind one more token. -/
theorem Enough.fetched {n : Nat} (h : Enough (n + 1) ts) (ho : Open ts)
    (hus : us.done = true ∨ us.cursor.rest.length < ts.cursor.rest.length) : Enough n us := by
  simp only [Enough, ho.done, Bool.false_eq_true, if_false] at h ⊢
  rcases hus with hdone | hlt
  · rw [if_pos hdone]
    omega
  · split <;> omega

/-- Where no more has to be read, the first token is known. -/
theorem later_of_needsMore (h : Live s ts) (hus : ts.needsMore = .ok (false, us)) :
    Later s ts us ∧ ∃ kind, Known kind us := by
  obtain ⟨hlater, hknown | ⟨htrue, -⟩⟩ := needsMore_spec h _ hus
  · exact ⟨hlater, hknown.2⟩
  · exact absurd htrue (by simp)

/-- Where more has to be read, a turn takes a character or reaches the end, so that one turn fewer is
enough behind it. -/
theorem later_of_fetch {n : Nat} (h : Live s ts) (hn : Enough (n + 1) ts)
    (hus : ts.needsMore = .ok (true, us)) (hvs : us.fetch = .ok vs) : Later s ts vs ∧ Enough n vs := by
  obtain ⟨hlater, hfalse | ⟨-, ho, ho', hcursor⟩⟩ := needsMore_spec h _ hus
  · exact absurd hfalse.1 (by simp)
  · obtain ⟨hgrown, hprogress⟩ := grown_fetch hlater.live.sound ho' _ hvs
    exact ⟨hlater.trans hgrown.later, hn.fetched ho (hcursor ▸ hprogress)⟩

/-- The bound of the loop suffices to know the first token. -/
theorem later_fill {n : Nat} (h : Live s ts) (hn : Enough n ts) :
    Ensures (fill n ts) fun us => Later s ts us ∧ ∃ kind, Known kind us := by
  induction n generalizing ts with
  | zero =>
    unfold Enough at hn
    split at hn <;> omega
  | succ n ih =>
    unfold fill
    split
    · exact .error
    · rename_i us hus
      exact .ok (later_of_needsMore h hus)
    · rename_i us hus
      split
      · exact .error
      · rename_i vs hvs
        obtain ⟨hlater, hturns⟩ := later_of_fetch h hn hus hvs
        exact (ih hlater.live hturns).mono fun ws hws => ⟨hlater.trans hws.1, hws.2⟩

/-- The stream goes as far when a comment is taken. -/
theorem Enough.dropComment {n : Nat} (h : Enough n ts) (passed : List Comment) :
    Enough n (ts.dropComment passed).2 := by
  unfold TokenStream.dropComment
  split
  · exact h
  · exact h

/-- The bound of the loop suffices to pass over comments. -/
theorem later_fillPast {n : Nat} (h : Live s ts) (hn : Enough n ts) (passed : List Comment) :
    Ensures (fillPast n ts passed) fun r => Later s ts r.2 ∧ ∃ kind, Known kind r.2 := by
  induction n generalizing ts passed with
  | zero =>
    unfold Enough at hn
    split at hn <;> omega
  | succ n ih =>
    unfold fillPast
    split
    · exact .error
    · rename_i us hus
      exact .ok (later_of_needsMore h hus)
    · rename_i us hus
      split
      · exact .error
      · rename_i vs hvs
        obtain ⟨hlater, hturns⟩ := later_of_fetch h hn hus hvs
        -- Of what was read, a comment is taken at once.
        have hdrop := hlater.trans (later_dropComment hlater.live passed)
        exact (ih hdrop.live (hturns.dropComment passed) _).mono fun r hr => ⟨hdrop.trans hr.1, hr.2⟩

/-! ## Comments of tokens -/

/-- Only comments of tokens change. -/
theorem grown_of_map_kind (h : Live s ts) {queue : List Token}
    (hkinds : queue.map Token.kind = ts.queue.map Token.kind) : Grown s 0 ts { ts with queue } := by
  have hlength : queue.length = ts.queue.length := by
    rw [← List.length_map (f := Token.kind), hkinds, List.length_map]
  have hsame : kinds { ts with queue } = ts.kinds := hkinds
  refine ⟨⟨⟨h.sound.rest, h.sound.size, fun t ht => ?_, h.sound.keyed.congr hkinds⟩, ?_⟩, ?_,
    fun kind hk => ⟨hsame ▸ hk.head, hk.keys⟩, ?_⟩
  · obtain ⟨u, hu, hkind⟩ := List.mem_map.mp (hkinds ▸ List.mem_map_of_mem ht)
    exact hkind ▸ h.sound.written u hu
  · exact h.stage.imp (fun ho => ⟨hsame ▸ ho.goesOn, ho.done⟩) fun he =>
      ⟨he.done, he.rest, he.keys, hsame ▸ he.mem, hsame ▸ he.order⟩
  · rw [marks, marks, hsame]
  · simp only [pending, hlength, Nat.add_zero, le_refl]

/-- The comments of the first token change. -/
theorem grown_withComments (h : Live s ts) (change : Option Comments → Except Breakdown Comments) :
    Ensures (ts.withComments change) (Grown s 0 ts) := by
  unfold withComments
  split
  · exact .ok (grown_of_map_kind h rfl)
  · rename_i t rest hqueue
    refine .ofBreakdown (.map fun c _ => grown_of_map_kind h ?_)
    rw [hqueue]
    rfl

/-! ## The first token -/

/-- The first token of a known kind. -/
theorem Known.first_kind (h : Known kind ts) : ts.first.kind = kind := by
  have hhead := h.head
  unfold first
  cases hqueue : ts.queue with
  | nil => rw [kinds, hqueue] at hhead; exact absurd hhead (by simp)
  | cons t rest => rw [kinds, hqueue] at hhead; exact Option.some.inj hhead

/-- A stream whose first token is known has one. -/
theorem Known.exists_queue (h : Known kind ts) : ∃ rest, ts.queue = ts.first :: rest := by
  have hhead := h.head
  unfold first
  cases hqueue : ts.queue with
  | nil => rw [kinds, hqueue] at hhead; exact absurd hhead (by simp)
  | cons t rest => exact ⟨rest, rfl⟩

/-- The stream is read on until its first token is known. -/
theorem later_ready (h : Live s ts) :
    Ensures ts.ready fun us => Later s ts us ∧ Known us.first.kind us := by
  unfold ready
  refine (later_fill h h.enough).bind fun us hus => ?_
  dsimp only
  have hdrop := hus.1.trans (later_dropComment hus.1.live [])
  refine (later_fillPast hdrop.live hdrop.live.enough _).bind fun r hr => ?_
  have hpast := hdrop.trans hr.1
  -- The comments that were passed over go to the first token, and one more token is read.
  have hlast : ∀ vs kind, Later s ts vs → Known kind vs → Ensures
      (if !vs.done && vs.queue.length < 2 then vs.fetch else pure vs)
      fun us => Later s ts us ∧ Known us.first.kind us := by
    intro vs kind hvs hknown
    refine .ite (fun hmore => ?_) fun _ => .ok ⟨hvs, hknown.first_kind ▸ hknown⟩
    rcases hvs.live.stage with ho | he
    · refine (grown_fetch hvs.live.sound ho).mono fun ws hws => ⟨hvs.trans hws.1.later, ?_⟩
      exact (hws.1.known kind hknown).first_kind ▸ hws.1.known kind hknown
    · exact absurd hmore (by simp [he.done])
  obtain ⟨kind, hknown⟩ := hr.2
  refine .ite (fun _ => hlast _ kind hpast hknown) fun _ => ?_
  exact (grown_withComments hpast.live _).bind fun vs hvs =>
    hlast vs kind (hpast.trans hvs.later) (hvs.known kind hknown)

/-- The first token stays, and is known. -/
theorem later_peek (h : Live s ts) :
    Ensures ts.peek fun r => Later s ts r.2 ∧ Known r.1.kind r.2 :=
  .map (later_ready h)

/-! ## Taking a token -/

/-- Reading on twice, where no more tokens can come than before. -/
theorem Grown.trans (h : Grown s 0 ts us) (h' : Grown s 0 us vs) : Grown s 0 ts vs :=
  ⟨h'.live, h.kept.trans h'.kept, fun kind hk => h'.known kind (h.known kind hk),
    h'.pending_le.trans h.pending_le⟩

/-- The comment behind the first token is taken, and the token after it is read. -/
theorem grown_dropSecond (h : Live s ts) (hk : Known kind ts) {t u : Token} {rest : List Token}
    (hqueue : ts.queue = t :: u :: rest) {c : Comment} (hu : u.comment? = some c) :
    Ensures (fetch { ts with queue := t :: rest, taken := ts.taken + 1 }) (Grown s 0 ts) := by
  have hkind := kind_of_comment? hu
  have hkinds : ts.kinds = t.kind :: u.kind :: rest.map Token.kind := by
    rw [kinds, hqueue]
    rfl
  obtain ⟨hkeyed, hkeys⟩ := (hqueue ▸ h.sound.keyed).dropSecond hk.keys (by simp [hu])
  have hmem : ∀ v ∈ t :: rest, v ∈ ts.queue := by
    rw [hqueue]
    exact fun v hv => (List.mem_cons.mp hv).elim (fun hv => hv ▸ List.mem_cons_self) fun hv =>
      List.mem_cons_of_mem _ (List.mem_cons_of_mem _ hv)
  have hsound : Sound s { ts with queue := t :: rest, taken := ts.taken + 1 } :=
    ⟨h.sound.rest, h.sound.size, fun v hv => h.sound.written v (hmem v hv), hkeyed⟩
  have hknown : ∀ kind, Known kind ts →
      Known kind { ts with queue := t :: rest, taken := ts.taken + 1 } := fun kind hk =>
    ⟨by have hhead := hk.head; rw [hkinds] at hhead; exact hhead, hkeys⟩
  have hmarks : ts.marks = marks { ts with queue := t :: rest, taken := ts.taken + 1 } := by
    rw [marks, hkinds, hkind]
    rfl
  have hpending : pending { ts with queue := t :: rest, taken := ts.taken + 1 } + 1 = ts.pending := by
    simp only [pending, hqueue, List.length_cons]
    omega
  rcases h.stage with ho | he
  · have hopen : Open { ts with queue := t :: rest, taken := ts.taken + 1 } := by
      refine ⟨fun hend => ho.goesOn ?_, ho.done⟩
      obtain ⟨v, hv, hvkind⟩ := List.mem_map.mp hend
      exact hvkind ▸ List.mem_map_of_mem (hmem v hv)
    refine (grown_fetch hsound hopen).mono fun us hus => ⟨hus.1.live, hmarks ▸ hus.1.kept,
      fun kind hk => hus.1.known kind (hknown kind hk), ?_⟩
    have hle := hus.1.pending_le
    omega
  · -- The end is still there, since it is no comment.
    have hended : Ended { ts with queue := t :: rest, taken := ts.taken + 1 } := by
      have hend := he.mem
      have horder := he.order
      rw [hkinds] at hend horder
      refine ⟨he.done, he.rest, he.keys, ?_, horder.sublist (.cons_cons _ (.cons _ (.refl _)))⟩
      change _ ∈ t.kind :: rest.map Token.kind
      simpa [hkind] using hend
    refine (grown_fetch_of_ended hsound hended).mono fun us hus => ⟨hus.live, hmarks ▸ hus.kept,
      fun kind hk => hus.known kind (hknown kind hk), ?_⟩
    have hle := hus.pending_le
    omega

/-- The comments behind the first token are taken. -/
theorem grown_dropFollowing (n : Nat) (h : Live s ts) (hk : Known kind ts) (passed : List Comment) :
    Ensures (dropFollowing n ts passed) fun r => Grown s 0 ts r.2 := by
  induction n generalizing ts passed with
  | zero => exact .ok h.grown
  | succ n ih =>
    unfold dropFollowing
    split
    · rename_i t u rest hqueue
      split
      · exact .ok h.grown
      · rename_i c hcomment
        have hfetch := grown_dropSecond h hk hqueue hcomment
        split
        · exact .error
        · rename_i us hus
          have hgrown := hfetch us hus
          exact (ih hgrown.live (hgrown.known kind hk) _).mono fun r hr => hgrown.trans hr
    · exact .ok h.grown

/-- The first token takes the comments behind it. -/
theorem grown_takeComments (h : Live s ts) (hk : Known kind ts) :
    Ensures ts.takeComments (Grown s 0 ts) := by
  unfold takeComments
  split
  · refine .ite (fun _ => (grown_dropFollowing _ h hk []).bind fun ⟨passed, us⟩ hus => ?_)
      fun _ => .ok h.grown
    cases passed with
    | nil => exact .ok hus
    | cons c further => exact (grown_withComments hus.live _).mono fun vs hvs => hus.trans hvs
  · exact .ok h.grown

/-- A token was taken from the stream, after the stream was read on. -/
structure Took (s : List Char) (ts : TokenStream) (t : Token) (us : TokenStream) : Prop where
  /-- The stream that is left is one of the text. -/
  live : Live s us
  /-- The mark of the token is written in the text. -/
  written : t.kind.IsWritten s
  /-- The marks that the stream had are those of the token and of the stream that is left. -/
  kept : ts.marks <+: t.kind.marks ++ us.marks
  /-- Fewer tokens can come than before. -/
  pending_lt : us.pending < ts.pending

/-- The first token is taken, unless it ends the text. -/
theorem took_next (h : Live s ts) :
    Ensures ts.next fun r => r.1.kind.IsWritten s ∧
      (r.1.kind ≠ .streamEnd → Took s ts r.1 r.2) ∧
      ∀ kind, Known kind ts → (∀ c, kind ≠ .comment c) → r.1.kind = kind := by
  unfold next
  -- The stream is read on in two ways before the token goes, and the token stays the same.
  refine .map ((later_ready h).bind fun us hus => ?_)
  refine (grown_takeComments hus.1.live hus.2).mono fun vs hvs => ?_
  have hknown := hvs.known _ hus.2
  have hlater := hus.1.trans hvs.later
  obtain ⟨rest, hqueue⟩ := hknown.exists_queue
  refine ⟨hlater.live.sound.written _ (by simp [hqueue]), fun hend => ?_, fun kind hk hc => ?_⟩
  · obtain ⟨hlive, hpending, hmarks⟩ := hlater.live.drop hqueue hend hknown.keys
    have hle := hlater.pending_le
    exact ⟨hlive, hlater.live.sound.written _ (by simp [hqueue]), hmarks ▸ hlater.kept, by
      dsimp only; omega⟩
  · rw [hknown.first_kind]
    exact (hus.1.known kind hc hk).first_kind

/-- A token that is known is the one that is taken. -/
theorem took_next_of_known (h : Live s ts) (hk : Known kind ts) (hcomment : ∀ c, kind ≠ .comment c)
    (hend : kind ≠ .streamEnd) : Ensures ts.next fun r => r.1.kind = kind ∧ Took s ts r.1 r.2 :=
  (took_next h).mono fun _ hr =>
    have hkind := hr.2.2 kind hk hcomment
    ⟨hkind, hr.2.1 (hkind ▸ hend)⟩

/-! ## The tokens of a text -/

/-- The tokens that are left are written in the text. -/
theorem isWritten_of_mem_drain (n : Nat) (h : Live s ts) {found : List Token}
    (hfound : ∀ t ∈ found, t.kind.IsWritten s) : ∀ t ∈ (drain n ts found).1, t.kind.IsWritten s := by
  induction n generalizing ts found with
  | zero => exact fun t ht => hfound t (List.mem_reverse.mp ht)
  | succ n ih =>
    have hnext := took_next h
    unfold drain
    split
    · exact fun t ht => hfound t (List.mem_reverse.mp ht)
    · rename_i u us heq
      obtain ⟨hwritten, htook, -⟩ := hnext _ heq
      have hall : ∀ t ∈ u :: found, t.kind.IsWritten s := List.forall_mem_cons.mpr ⟨hwritten, hfound⟩
      split
      · exact fun t ht => hall t (List.mem_reverse.mp ht)
      · rename_i hkind
        exact ih (htook (by simpa using hkind)).live hall

/-- The stream of a text is one of the text. -/
theorem live_ofText (s : List Char) : Live s (.ofText s) := by
  refine ⟨⟨List.suffix_refl s, rfl, ?_, .nil⟩, Or.inl ⟨?_, rfl⟩⟩
  · simp [ofText, TokenKind.IsWritten]
  · simp [ofText, kinds]

end TokenStream

/-- Every anchor and every alias among the tokens of a text is written in it. -/
theorem isWritten_of_mem_tokens : ∀ t ∈ (tokens s).1, t.kind.IsWritten s :=
  TokenStream.isWritten_of_mem_drain _ (TokenStream.live_ofText s) (List.forall_mem_nil _)

end StylesheetTrace.Yaml
