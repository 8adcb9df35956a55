import StylesheetTrace.Proofs.Yaml.Stream

/-!
# Reading one token

Before the end of a text is reached, each way to read a token takes a character and adds at most five
tokens and open collections (`Fetched`), so that no more tokens can come than before (`grown_fetch`). The
marks that are added come behind those that are there, and the first token stays if it is known.
-/

namespace StylesheetTrace.Yaml

open Cursor

variable {s : List Char}

namespace TokenStream

variable {ts us vs : TokenStream} {m n : Nat}

/-! ## Reading one token -/

/-- One token was read, with those that it implies, and a character was taken. -/
structure Fetched (s : List Char) (ts us : TokenStream) : Prop where
  /-- With the token come four others at most. -/
  turn : Turn s 5 ts us
  /-- A character was taken. -/
  ahead : Ahead ts.cursor.step us.cursor

/-- What is read behind a turn is read. -/
theorem Turn.fetched (h : Turn s m ts us) (h' : Turn s n us vs) (hmn : m + n ≤ 5)
    (hcursor : Ahead ts.cursor.step vs.cursor) : Fetched s ts vs :=
  ⟨⟨h'.sound, h'.isOpen, (h.adds.trans h'.adds).mono hmn, h.ahead.trans h'.ahead⟩, hcursor⟩

/-- Nothing but the candidates and whether a key may begin is changed. -/
theorem Turn.withKeys (h : Sound s ts) (ho : Open ts) {keys : List (Nat × KeyCandidate)}
    (hkeys : keys.Sublist ts.keys) (keyAllowed : Bool) :
    Turn s 0 ts { ts with keys, keyAllowed } :=
  .append h ho (Ahead.refl _) (List.append_nil _).symm (List.forall_mem_nil _) hkeys
    (fun k hk => h.keyed.level_le k (hkeys.mem hk)) rfl rfl (Nat.zero_add _).le

/-- A token of some characters is read at the position. -/
theorem turn_pushHere (h : Sound s ts) (ho : Open ts) {kind : TokenKind} (hkind : kind.IsWritten s)
    (hend : kind ≠ .streamEnd) (size : Nat) : Turn s 1 ts (ts.pushHere kind size) :=
  .append h ho (ahead_skip size ts.cursor) rfl (List.forall_mem_singleton.mpr ⟨hkind, hend⟩)
    (List.Sublist.refl _) h.keyed.level_le rfl rfl (Nat.add_comm _ _).le

/-- What stands between documents is read. -/
theorem fetched_fetchBetween (h : Sound s ts) (ho : Open ts)
    {read : TokenStream → Outcome TokenStream}
    (hread : ∀ us, Sound s us → Open us →
      Ensures (read us) fun vs => Turn s 1 us vs ∧ Ahead us.cursor.step vs.cursor) :
    Ensures (ts.fetchBetween read) (Fetched s ts) := by
  have hunwind := turn_unwind h ho (-1)
  have hcursor : (ts.unwind (-1)).cursor = ts.cursor := by
    obtain ⟨indent, outer, more, heq, -⟩ := unwind_spec ts (-1)
    rw [heq]
  refine (dropKey_spec _).bind ?_
  rintro us ⟨keys, rfl, hkeys, -⟩
  have hbefore := hunwind.trans (.withKeys hunwind.sound hunwind.isOpen hkeys false)
  refine (hread _ hbefore.sound hbefore.isOpen).mono fun vs hvs => hbefore.fetched hvs.1 (by omega) ?_
  have hahead := hvs.2
  dsimp only at hahead
  rwa [hcursor] at hahead

/-- A directive is read. -/
theorem fetched_fetchDirective (h : Sound s ts) (ho : Open ts) :
    Ensures ts.fetchDirective (Fetched s ts) := by
  refine fetched_fetchBetween h ho fun us hus hopen => .map ((ahead_directive _ _).mono fun r hr => ?_)
  exact ⟨.append hus hopen ((ahead_step _).trans hr) rfl
    (List.forall_mem_singleton.mpr ⟨trivial, by simp⟩) (List.Sublist.refl _) hus.keyed.level_le rfl rfl
    (Nat.add_comm _ _).le, hr⟩

/-- The beginning or the end of a document is read. -/
theorem fetched_separator (h : Sound s ts) (ho : Open ts) {kind : TokenKind}
    (hkind : kind.IsWritten s) (hend : kind ≠ .streamEnd) :
    Ensures (ts.fetchBetween fun s => .ok (s.pushHere kind 3)) (Fetched s ts) :=
  fetched_fetchBetween h ho fun us hus hopen =>
    .ok ⟨turn_pushHere hus hopen hkind hend 3, ahead_skip 2 us.cursor.step⟩

/-- A turn that takes a character. -/
theorem Turn.toFetched (h : Turn s n ts us) (hn : n ≤ 5) (hcursor : Ahead ts.cursor.step us.cursor) :
    Fetched s ts us :=
  ⟨h.mono hn, hcursor⟩

/-- The beginning of a flow collection is read. -/
theorem fetched_fetchFlowStart (h : Sound s ts) (ho : Open ts) (flow : FlowKind) {kind : TokenKind}
    (hkind : kind.IsWritten s) (hend : kind ≠ .streamEnd) (hcomment : ∀ c, kind ≠ .comment c) :
    Ensures (ts.fetchFlowStart flow kind) (Fetched s ts) := by
  refine .map ((saveKey_spec h).mono ?_)
  rintro us ⟨keys, rfl, hkeys⟩
  have hturn : Turn s 1 ts { ({ ts with keys } : TokenStream).pushHere kind 1 with
      flow := flow :: ts.flow, keyAllowed := true } :=
    .saved h ho hkeys (comment?_eq_none hcomment) hkind hend (ahead_step _) rfl rfl (Nat.le_succ _) rfl
      rfl rfl
  exact hturn.toFetched (by omega) (Ahead.refl _)

/-- The end of a flow collection is read. -/
theorem fetched_fetchFlowEnd (h : Sound s ts) (ho : Open ts) {kind : TokenKind}
    (hkind : kind.IsWritten s) (hend : kind ≠ .streamEnd) :
    Ensures (ts.fetchFlowEnd kind) (Fetched s ts) := by
  refine .map ((dropKey_spec ts).mono ?_)
  rintro us ⟨keys, rfl, hkeys, hlevel⟩
  -- The candidate of the collection was given up, and those around it belong to outer levels.
  have houter : ∀ k ∈ keys, k.1 ≤ (ts.flow.drop 1).length := by
    intro k hk
    have hle := h.keyed.level_le k (hkeys.mem hk)
    have hne := hlevel k hk
    rw [List.length_drop]
    simp only [level] at hle hne
    omega
  have hturn : Turn s 1 ts { ({ ts with keys } : TokenStream).pushHere kind 1 with
      flow := ts.flow.drop 1, keyAllowed := false } :=
    .append h ho (ahead_step _) rfl (List.forall_mem_singleton.mpr ⟨hkind, hend⟩) hkeys houter rfl rfl
      (Nat.add_comm _ _).le
  exact hturn.toFetched (by omega) (Ahead.refl _)

/-- The comma of a flow collection is read. -/
theorem fetched_fetchFlowEntry (h : Sound s ts) (ho : Open ts) :
    Ensures ts.fetchFlowEntry (Fetched s ts) := by
  refine .map ((dropKey_spec _).mono ?_)
  rintro us ⟨keys, rfl, hkeys, -⟩
  have hbefore := Turn.withKeys h ho hkeys true
  have hpush := turn_pushHere hbefore.sound hbefore.isOpen
    (isWritten_of_isMark_eq_false (k := .flowEntry) rfl) (by simp) 1
  exact hbefore.fetched hpush (by omega) (Ahead.refl _)

/-- A block collection begins, unless it is open already. -/
theorem turn_openHere (h : Sound s ts) (ho : Open ts) {kind : TokenKind} (hkind : kind.IsWritten s)
    (hend : kind ≠ .streamEnd) :
    Turn s 2 ts (ts.openHere kind) ∧ (ts.openHere kind).cursor = ts.cursor := by
  unfold openHere
  split
  · refine ⟨.append h ho (Ahead.refl _) rfl (List.forall_mem_singleton.mpr ⟨hkind, hend⟩)
      (List.Sublist.refl _) h.keyed.level_le rfl rfl ?_, rfl⟩
    change 1 + (ts.outer.length + 1) ≤ ts.outer.length + 2
    omega
  · exact ⟨(Turn.withKeys h ho (List.Sublist.refl _) ts.keyAllowed).mono (by omega), rfl⟩

/-- A part of a block collection is read. -/
theorem fetched_fetchBlockPart (h : Sound s ts) (ho : Open ts) (part : Misplaced)
    {opening token : TokenKind} (hopening : opening.IsWritten s ∧ opening ≠ .streamEnd)
    (htoken : token.IsWritten s ∧ token ≠ .streamEnd) (keyAllowed : Bool) :
    Ensures (ts.fetchBlockPart part opening token keyAllowed) (Fetched s ts) := by
  refine .ite (fun _ => .error) fun _ => ?_
  -- In a flow collection no block collection begins.
  have hopen : Turn s 2 ts (if ts.inFlow then ts else ts.openHere opening) ∧
      (if ts.inFlow then ts else ts.openHere opening).cursor = ts.cursor := by
    split
    · exact ⟨(Turn.withKeys h ho (List.Sublist.refl _) ts.keyAllowed).mono (by omega), rfl⟩
    · exact turn_openHere h ho hopening.1 hopening.2
  generalize (if ts.inFlow then ts else ts.openHere opening) = us at hopen ⊢
  obtain ⟨hopen, hcursor⟩ := hopen
  refine .map ((dropKey_spec _).mono ?_)
  rintro vs ⟨keys, rfl, hkeys, -⟩
  have hbefore := hopen.trans (.withKeys hopen.sound hopen.isOpen hkeys keyAllowed)
  have hpush := turn_pushHere hbefore.sound hbefore.isOpen htoken.1 htoken.2 1
  refine hbefore.fetched hpush (by omega) ?_
  rw [← hcursor]
  exact Ahead.refl _

/-! ## Keys -/

/-- A list with an element put in it. -/
theorem insertIdx_eq {α : Type} {l : List α} {i : Nat} (a : α) (h : i ≤ l.length) :
    l.insertIdx i a = l.take i ++ a :: l.drop i := by
  induction l generalizing i with
  | nil =>
    obtain rfl := Nat.le_zero.mp h
    rfl
  | cons b l ih =>
    cases i with
    | zero => rfl
    | succ i => rw [List.insertIdx_succ_cons, ih (Nat.le_of_succ_le_succ h)]; rfl

/-- The tokens that a colon puts before its key. -/
theorem markKey_spec {k : KeyCandidate}
    (hlength : k.number - ts.taken ≤ ts.queue.length) :
    ∃ indent outer, ∃ more : List Token,
      ts.markKey k = { ts with
        indent, outer
        keys := ts.keys.filter fun l => l.1 != ts.level
        keyAllowed := false
        queue := ts.queue.take (k.number - ts.taken) ++ (more ++ ts.queue.drop (k.number - ts.taken)) } ∧
      (∀ t ∈ more, t.kind.isMark = false ∧ t.kind ≠ .streamEnd) ∧
      more.length + outer.length ≤ ts.outer.length + 3 := by
  unfold markKey
  dsimp only [insertAt]
  rw [insertIdx_eq _ hlength]
  split
  · -- The key is the first one of its mapping, which begins in front of it.
    refine ⟨k.column, ts.indent :: ts.outer, [⟨.blockMappingStart, k.line, none⟩, ⟨.key, k.line, none⟩],
      ?_, by simp [TokenKind.isMark], ?_⟩
    · dsimp only [indented]
      have htake : (ts.queue.take (k.number - ts.taken)).length = k.number - ts.taken :=
        List.length_take_of_le hlength
      rw [insertIdx_eq _ (by rw [List.length_append, htake]; omega), List.take_left' htake,
        List.drop_left' htake]
      rfl
    · change 2 + (ts.outer.length + 1) ≤ ts.outer.length + 3
      omega
  · exact ⟨ts.indent, ts.outer, [⟨.key, k.line, none⟩], rfl, by simp [TokenKind.isMark],
      by simp; omega⟩

/-- The tokens before a key are put there, which do not change the first token if it was known. -/
theorem turn_markKey (h : Sound s ts) (ho : Open ts) {k : KeyCandidate} (hk : (ts.level, k) ∈ ts.keys) :
    Turn s 3 ts (ts.markKey k) ∧ (ts.markKey k).cursor = ts.cursor := by
  obtain ⟨hle, t, ht, -⟩ := h.keyed.token _ hk
  have hlt := (List.getElem?_eq_some_iff.mp ht).1
  obtain ⟨indent, outer, more, heq, hmore, hlength⟩ := markKey_spec hlt.le
  have hkeyed := h.keyed.insert hk more
  dsimp only at hle hlt hkeyed
  generalize hi : k.number - ts.taken = i at heq hlt hkeyed
  rw [heq]
  refine ⟨⟨⟨h.rest, h.size, fun u hu => ?_, hkeyed⟩, ⟨fun hmem => ?_, ho.done⟩,
    ⟨rfl, ?_, fun kind hknown => ⟨?_, fun l hl => ?_⟩, ?_⟩, Ahead.refl _⟩, rfl⟩
  · rcases List.mem_append.mp hu with hu | hu
    · exact h.written u (List.mem_of_mem_take hu)
    rcases List.mem_append.mp hu with hu | hu
    · exact isWritten_of_isMark_eq_false (hmore u hu).1
    · exact h.written u (List.mem_of_mem_drop hu)
  · obtain ⟨u, hu, hkind⟩ := List.mem_map.mp hmem
    rcases List.mem_append.mp hu with hu | hu
    · exact ho.goesOn (hkind ▸ List.mem_map_of_mem (List.mem_of_mem_take hu))
    rcases List.mem_append.mp hu with hu | hu
    · exact (hmore u hu).2 hkind
    · exact ho.goesOn (hkind ▸ List.mem_map_of_mem (List.mem_of_mem_drop hu))
  · -- The tokens are no marks.
    have hnone : (more.map Token.kind).filter TokenKind.isMark = [] := by
      rw [List.filter_eq_nil_iff]
      intro kind hkind
      obtain ⟨u, hu, rfl⟩ := List.mem_map.mp hkind
      simp [(hmore u hu).1]
    simp only [marks, kinds, List.map_append, List.filter_append, hnone, List.nil_append]
    rw [← List.filter_append, ← List.map_append, List.take_append_drop]
  · -- The key is behind the first token.
    have hpos := hknown.keys _ hk
    dsimp only at hpos
    have hhead := hknown.head
    rw [kinds, List.head?_map] at hhead ⊢
    rw [List.head?_append, List.head?_take, if_neg (by omega)]
    cases hqueue : ts.queue.head? with
    | none => rw [hqueue] at hhead; exact absurd hhead (by simp)
    | some u => rw [hqueue] at hhead; exact hhead
  · exact hknown.keys l (List.mem_filter.mp hl).1
  · simp only [List.length_append, List.length_take, List.length_drop]
    omega

/-- A colon is read. -/
theorem fetched_fetchValue (h : Sound s ts) (ho : Open ts) : Ensures ts.fetchValue (Fetched s ts) := by
  unfold fetchValue
  split
  · rename_i k hlookup
    have hk : (ts.level, k) ∈ ts.keys := by
      obtain ⟨before, behind, hkeys, -⟩ := List.lookup_eq_some_iff.mp hlookup
      rw [hkeys]
      simp
    obtain ⟨hmark, hcursor⟩ := turn_markKey h ho hk
    have hpush := turn_pushHere hmark.sound hmark.isOpen
      (isWritten_of_isMark_eq_false (k := .value) rfl) (by simp) 1
    refine .ok (hmark.fetched hpush (by omega) ?_)
    rw [← hcursor]
    exact Ahead.refl _
  · exact fetched_fetchBlockPart h ho _ ⟨by trivial, by simp⟩ ⟨by trivial, by simp⟩ _

/-! ## Content -/

/-- A token that may be or begin a key is read. -/
theorem fetched_fetchContent (h : Sound s ts) (ho : Open ts)
    {read : TokenStream → Outcome (TokenKind × Cursor)}
    (hread : ∀ keys, Ensures (read { ts with keys }) fun r =>
      r.1.IsWritten s ∧ r.1 ≠ .streamEnd ∧ (∀ c, r.1 ≠ .comment c) ∧ Ahead ts.cursor.step r.2) :
    Ensures (ts.fetchContent read) (Fetched s ts) := by
  refine (saveKey_spec h).bind ?_
  rintro us ⟨keys, rfl, hkeys⟩
  refine .map ((hread keys).mono ?_)
  rintro ⟨kind, cursor⟩ ⟨hwritten, hend, hcomment, hahead⟩
  have hturn : Turn s 1 ts { ({ ts with keys } : TokenStream).push kind ts.cursor.line with
      cursor, keyAllowed := false } :=
    .saved h ho hkeys (comment?_eq_none hcomment) hwritten hend ((ahead_step _).trans hahead) rfl rfl
      le_rfl rfl rfl rfl
  exact hturn.toFetched (by omega) hahead

/-- A name behind its sign is read. -/
theorem fetched_fetchName (h : Sound s ts) (ho : Open ts) {sign : Char} {rest : List Char}
    (hrest : ts.cursor.rest = sign :: rest) {mark : String → TokenKind}
    (hmark : ∀ n, Written s sign n → (mark n).IsWritten s) (hend : ∀ n, mark n ≠ .streamEnd)
    (hcomment : ∀ n c, mark n ≠ .comment c) :
    Ensures (ts.fetchContent fun s => (anchorName s.cursor).map fun (n, c) => (mark n, c))
      (Fetched s ts) :=
  fetched_fetchContent h ho fun _ => .map ((written_of_anchorName hrest h.rest).mono fun r hr =>
    ⟨hmark r.1 hr.1, hend r.1, hcomment r.1, hr.2⟩)

/-- A block scalar is read. -/
theorem fetched_fetchBlockScalar (h : Sound s ts) (ho : Open ts) :
    Ensures ts.fetchBlockScalar (Fetched s ts) := by
  refine (dropKey_spec _).bind ?_
  rintro us ⟨keys, rfl, hkeys, -⟩
  refine .map ((ahead_blockScalar _ _).mono fun b hb => ?_)
  have hturn : Turn s 1 ts { ts with
      keys
      keyAllowed := true
      queue := ts.queue ++ [⟨.scalar b.text b.style, ts.cursor.line, b.comments⟩]
      cursor := b.cursor } :=
    .append h ho ((ahead_step _).trans hb) rfl (List.forall_mem_singleton.mpr ⟨trivial, by simp⟩) hkeys
      (fun k hk => h.keyed.level_le k (hkeys.mem hk)) rfl rfl (Nat.add_comm _ _).le
  exact hturn.toFetched (by omega) hb

/-- A plain scalar is read, which has a character if it does not end at once. -/
theorem fetched_fetchPlain (h : Sound s ts) (ho : Open ts) {ch : Char} {rest : List Char}
    (hrest : ts.cursor.rest = ch :: rest) (hsign : ch ≠ '#')
    (hstops : PlainContext.stops ⟨ts.inFlow, ts.old, ts.indent + 1⟩ ch (rest.headD endMark) = false) :
    Ensures ts.fetchPlain (Fetched s ts) := by
  refine .map ((saveKey_spec h).mono ?_)
  rintro us ⟨keys, rfl, hkeys⟩
  have hahead := ahead_plainScalar hrest hsign hstops
  have hturn : Turn s 1 ts { ts with
      keys
      queue := ts.queue ++ [⟨.scalar (plainScalar ⟨ts.inFlow, ts.old, ts.indent + 1⟩ ts.cursor).1 .plain,
        ts.cursor.line,
        (plainScalar ⟨ts.inFlow, ts.old, ts.indent + 1⟩ ts.cursor).2.comments ts.cursor⟩]
      cursor := (plainScalar ⟨ts.inFlow, ts.old, ts.indent + 1⟩ ts.cursor).2.cursor
      keyAllowed := (plainScalar ⟨ts.inFlow, ts.old, ts.indent + 1⟩ ts.cursor).2.ended } :=
    .saved h ho hkeys rfl (by trivial) (by simp) ((ahead_step _).trans hahead) rfl rfl le_rfl rfl rfl rfl
  exact hturn.toFetched (by omega) hahead

/-- A quoted scalar is read. -/
theorem fetched_fetchQuoted (h : Sound s ts) (ho : Open ts) (style : Style) :
    Ensures (ts.fetchQuoted style) (Fetched s ts) :=
  fetched_fetchContent h ho fun _ => .map ((ahead_quotedScalar _).mono fun _ hr =>
    ⟨trivial, by simp, by simp, hr⟩)

/-- Where a plain scalar begins, and a colon is no indicator of a value, the scalar does not end at
once. -/
theorem stops_of_startsPlain {ch : Char} {rest : List Char} (hrest : ts.cursor.rest = ch :: rest)
    (hstarts : ts.startsPlain = true) (hvalue : ¬ (ch == ':' && ts.startsValue) = true) :
    ch ≠ '#' ∧
      PlainContext.stops ⟨ts.inFlow, ts.old, ts.indent + 1⟩ ch (rest.headD endMark) = false := by
  have hpeek : ts.cursor.peek = ch := by rw [Cursor.peek, hrest]; rfl
  have hnext : ts.cursor.peekAt 1 = rest.headD endMark := by rw [peekAt, hrest]; rfl
  have hcolon : ch = ':' → isWordEnd (rest.headD endMark) = false := by
    rintro rfl
    simp only [startsValue, hnext, beq_self_eq_true, Bool.true_and, Bool.or_eq_true, not_or,
      Bool.not_eq_true] at hvalue
    exact hvalue.1
  simp only [startsPlain, hpeek, hnext, Bool.or_eq_true, Bool.and_eq_true, Bool.not_eq_true',
    beq_iff_eq] at hstarts
  generalize rest.headD endMark = next at hcolon hstarts ⊢
  rcases hstarts with (hplain | ⟨hword, rfl | ⟨hflow, rfl | rfl⟩⟩) | ⟨⟨⟨-, rfl⟩, -⟩, -⟩
  · -- The character is no indicator.
    simp only [isIndicator, Bool.or_eq_false_iff] at hplain
    obtain ⟨hend, hlist⟩ := hplain
    simp at hlist
    refine ⟨by tauto, ?_⟩
    simp [PlainContext.stops, isWordEnd, hend, hlist]
  · exact ⟨by decide, by simp [PlainContext.stops, isWordEnd, isEnd, isBreak, endMark]⟩
  · refine ⟨by decide, ?_⟩
    simp [PlainContext.stops, hflow, isWordEnd, isEnd, isBreak, endMark]
  · refine ⟨by decide, ?_⟩
    simp [PlainContext.stops, hcolon rfl]
  · refine ⟨by decide, ?_⟩
    simp [PlainContext.stops, hcolon rfl]

/-! ## The next token -/

/-- Before the end, no token ends the text. -/
theorem Open.order (h : Open ts) : Ordered ts.kinds :=
  List.pairwise_iff_forall_sublist.mpr fun hkl hk =>
    absurd (hkl.mem List.mem_cons_self) (hk ▸ h.goesOn)

/-- The end of the text is read, which ends all block collections. -/
theorem ended_fetchEnd (h : Sound s ts) (hrest : ts.cursor.rest = [])
    (horder : Ordered ts.kinds) :
    Ensures ts.fetchEnd fun us => Sound s us ∧ Ended us ∧ Adds 1 ts us := by
  obtain ⟨indent, outer, more, heq, hmore, hlength⟩ := unwind_spec ts (-1)
  unfold fetchEnd
  rw [heq]
  refine .map ((dropKey_spec _).mono ?_)
  rintro us ⟨keys, rfl, -⟩
  -- The tokens that are read end block collections, and the last one ends the text.
  have hlast : ∀ t ∈ more ++ [(⟨.streamEnd, ts.cursor.line, none⟩ : Token)], t.kind.isMark = false := by
    intro t ht
    rcases List.mem_append.mp ht with ht | ht
    · rw [hmore t ht]
      rfl
    · rw [List.mem_singleton.mp ht]
      rfl
  have hqueue : ts.queue ++ more ++ [(⟨.streamEnd, ts.cursor.line, none⟩ : Token)] =
      ts.queue ++ (more ++ [⟨.streamEnd, ts.cursor.line, none⟩]) := List.append_assoc _ _ _
  refine ⟨⟨h.rest, h.size, fun t ht => ?_, .nil⟩, ⟨rfl, hrest, rfl, ?_, ?_⟩,
    .append hqueue (List.nil_sublist _) rfl ?_⟩
  · dsimp only [push] at ht
    rw [hqueue, List.mem_append] at ht
    rcases ht with ht | ht
    · exact h.written t ht
    · exact isWritten_of_isMark_eq_false (hlast t ht)
  · simp [kinds, push]
  · change Ordered (List.map Token.kind _)
    dsimp only [push]
    rw [hqueue, List.map_append]
    exact horder.append (List.forall_mem_map.mpr hlast)
  · rw [List.length_append, List.length_singleton]
    change more.length + 1 + outer.length ≤ ts.outer.length + 1
    omega

/-- Where the end was not reached, the token at the position is read, or the end. -/
theorem fetched_fetchToken (h : Sound s ts) (ho : Open ts) :
    Ensures ts.fetchToken fun us =>
      (ts.cursor.rest ≠ [] ∧ Fetched s ts us) ∨ Sound s us ∧ Ended us ∧ Adds 1 ts us := by
  unfold fetchToken
  dsimp only
  split
  · rename_i hrest
    exact (ended_fetchEnd h hrest ho.order).mono fun _ hus => Or.inr hus
  · rename_i ch rest hrest
    refine Ensures.mono (p := Fetched s ts) ?_ fun _ hus => Or.inl ⟨by simp [hrest], hus⟩
    -- The character tells what is read; only the two signs begin marks.
    refine .ite (fun _ => fetched_fetchDirective h ho) fun _ => ?_
    refine .ite (fun _ => fetched_separator h ho (by trivial) (by simp)) fun _ => ?_
    refine .ite (fun _ => fetched_separator h ho (by trivial) (by simp)) fun _ => ?_
    refine .ite (fun _ => fetched_fetchFlowStart h ho _ (by trivial) (by simp) (by simp)) fun _ => ?_
    refine .ite (fun _ => fetched_fetchFlowStart h ho _ (by trivial) (by simp) (by simp)) fun _ => ?_
    refine .ite (fun _ => fetched_fetchFlowEnd h ho (by trivial) (by simp)) fun _ => ?_
    refine .ite (fun _ => fetched_fetchFlowEnd h ho (by trivial) (by simp)) fun _ => ?_
    refine .ite (fun _ => fetched_fetchFlowEntry h ho) fun _ => ?_
    have hpart : ∀ part opening token keyAllowed, opening.isMark = false → token.isMark = false →
        opening ≠ .streamEnd → token ≠ .streamEnd →
        Ensures (ts.fetchBlockPart part opening token keyAllowed) (Fetched s ts) :=
      fun part opening token keyAllowed hopening htoken hne hne' =>
        fetched_fetchBlockPart h ho part ⟨isWritten_of_isMark_eq_false hopening, hne⟩
          ⟨isWritten_of_isMark_eq_false htoken, hne'⟩ keyAllowed
    refine .ite (fun _ => hpart _ _ _ _ rfl rfl (by simp) (by simp)) fun _ => ?_
    refine .ite (fun _ => hpart _ _ _ _ rfl rfl (by simp) (by simp)) fun _ => ?_
    refine .ite (fun _ => fetched_fetchValue h ho) fun hvalue => ?_
    refine .ite (fun hsign => ?star) fun _ => .ite (fun hsign => ?ampersand) fun _ => ?_
    case star =>
      exact fetched_fetchName h ho (beq_iff_eq.mp hsign ▸ hrest) (fun _ h => h) (by simp) (by simp)
    case ampersand =>
      exact fetched_fetchName h ho (beq_iff_eq.mp hsign ▸ hrest) (fun _ h => h) (by simp) (by simp)
    refine .ite (fun _ => ?tag) fun _ => ?_
    case tag =>
      refine fetched_fetchContent h ho fun keys => .map ((ahead_tagText _ _).mono fun r hr => ?_)
      exact ⟨trivial, by simp, by simp, hr⟩
    refine .ite (fun _ => fetched_fetchBlockScalar h ho) fun _ => ?_
    refine .ite (fun _ => fetched_fetchQuoted h ho _) fun _ => ?_
    refine .ite (fun _ => fetched_fetchQuoted h ho _) fun _ => ?_
    refine .ite (fun hplain => ?plain) fun _ => .error
    obtain ⟨hsign, hstops⟩ := stops_of_startsPlain hrest hplain hvalue
    exact fetched_fetchPlain h ho hrest hsign hstops

/-! ## Reading on -/

/-- The stream is one of the text. -/
structure Live (s : List Char) (ts : TokenStream) : Prop where
  /-- It was read from the text. -/
  sound : Sound s ts
  /-- The end of the text was reached or not. -/
  stage : Open ts ∨ Ended ts

/-- How many tokens the stream can have yet: those that were read and not taken, one for each open
block collection, five for each character, and one for the end of the text. -/
def pending (ts : TokenStream) : Nat :=
  ts.queue.length + ts.outer.length + 5 * ts.cursor.rest.length + if ts.done then 0 else 1

/-- A stream of the text was read on, and no token was taken. -/
structure Grown (s : List Char) (n : Nat) (ts us : TokenStream) : Prop where
  /-- The stream is still one of the text. -/
  live : Live s us
  /-- No mark was taken. -/
  kept : ts.marks <+: us.marks
  /-- The first token is the same if it was known. -/
  known : ∀ kind, Known kind ts → Known kind us
  /-- At most `n` tokens more can come than before. -/
  pending_le : us.pending ≤ ts.pending + n

/-- From before the end to before the end. -/
theorem Turn.grown (h : Turn s n ts us) (ho : Open ts)
    (hrest : n + 5 * us.cursor.rest.length ≤ 5 * ts.cursor.rest.length) : Grown s 0 ts us := by
  refine ⟨⟨h.sound, Or.inl h.isOpen⟩, h.adds.kept, h.adds.known, ?_⟩
  have hlength := h.adds.length
  simp only [pending, ho.done, h.isOpen.done]
  omega

/-- From before the end to the end. -/
theorem Adds.grown (h : Adds 1 ts us) (hsound : Sound s us) (hended : Ended us) (ho : Open ts) :
    Grown s 0 ts us := by
  refine ⟨⟨hsound, Or.inr hended⟩, h.kept, h.known, ?_⟩
  have hlength := h.length
  simp only [pending, ho.done, hended.done, hended.rest, List.length_nil]
  simp
  omega

/-- Before the end, reading takes a character or reaches the end. -/
theorem grown_fetch (h : Sound s ts) (ho : Open ts) :
    Ensures ts.fetch fun us => Grown s 0 ts us ∧
      (us.done = true ∨ us.cursor.rest.length < ts.cursor.rest.length) := by
  have hgap := Gap.ahead_read ts.inFlow ts.cursor
  have hlt := Gap.length_lt_of_read ts.inFlow ts.cursor
  unfold fetch
  dsimp only
  generalize Gap.read ts.inFlow ts.cursor = gap at hgap hlt ⊢
  split
  · rename_i c hcomment
    have hlt := hlt (by simp [hcomment])
    -- A comment is a token by itself, wherever it hangs.
    have hturn : ∀ (t : Token) (keyAllowed : Bool), t.kind.IsWritten s → t.kind ≠ .streamEnd →
        Turn s 1 ts { ts with cursor := gap.cursor, keyAllowed, queue := ts.queue ++ [t] } :=
      fun t _ ht hend => .append h ho hgap rfl (List.forall_mem_singleton.mpr ⟨ht, hend⟩)
        (List.Sublist.refl _) h.keyed.level_le rfl rfl (Nat.add_comm _ _).le
    refine .ok ⟨(hturn ⟨.comment _, c.line, none⟩ _ trivial (by simp)).grown ho ?_, Or.inr hlt⟩
    change 1 + 5 * gap.cursor.rest.length ≤ _
    omega
  · refine (dropStale_spec _).bind ?_
    rintro us ⟨keys, rfl, hkeys⟩
    have hbefore : Turn s 0 ts { ts with
        cursor := gap.cursor, keyAllowed := ts.keyAllowed || (gap.ended && !ts.inFlow), keys } :=
      .append h ho hgap (List.append_nil _).symm (List.forall_mem_nil _) hkeys
        (fun k hk => h.keyed.level_le k (hkeys.mem hk)) rfl rfl (Nat.zero_add _).le
    have hunwind := hbefore.trans (turn_unwind hbefore.sound hbefore.isOpen gap.cursor.column)
    have hrest := hunwind.ahead.rest.length_le
    refine (fetched_fetchToken hunwind.sound hunwind.isOpen).mono ?_
    rintro vs (⟨hne, hfetched⟩ | ⟨hsound, hended, hadds⟩)
    · have hlt := hfetched.ahead.length_lt hne
      exact ⟨(hunwind.trans hfetched.turn).grown ho (by omega), Or.inr (by omega)⟩
    · exact ⟨(hunwind.adds.trans hadds).grown hsound hended ho, Or.inl hended.done⟩

/-- Behind the end, only its tokens are read again. -/
theorem grown_fetch_of_ended (h : Sound s ts) (he : Ended ts) :
    Ensures ts.fetch (Grown s 1 ts) := by
  have hgap := Gap.ahead_read ts.inFlow ts.cursor
  have hlt := Gap.length_lt_of_read ts.inFlow ts.cursor
  unfold fetch
  dsimp only
  generalize Gap.read ts.inFlow ts.cursor = gap at hgap hlt ⊢
  have hrest : gap.cursor.rest = [] := List.suffix_nil.mp (he.rest ▸ hgap.rest)
  split
  · rename_i c hcomment
    exact absurd (hlt (by simp [hcomment])) (by simp [he.rest])
  · refine (dropStale_spec _).bind ?_
    rintro us ⟨keys, rfl, hkeys⟩
    obtain ⟨indent, outer, more, heq, hmore, hlength⟩ := unwind_spec
      { ts with cursor := gap.cursor, keyAllowed := ts.keyAllowed || (gap.ended && !ts.inFlow), keys }
      gap.cursor.column
    have hnomark : ∀ t ∈ more, t.kind.isMark = false := fun t ht => by rw [hmore t ht]; rfl
    rw [heq]
    have hsound : Sound s { ts with
        cursor := gap.cursor, keyAllowed := ts.keyAllowed || (gap.ended && !ts.inFlow), keys
        indent, outer, queue := ts.queue ++ more } :=
      h.append hgap rfl (fun t ht => isWritten_of_isMark_eq_false (hnomark t ht)) hkeys
        (fun k hk => h.keyed.level_le k (hkeys.mem hk)) rfl
    have hadds : Adds 0 ts { ts with
        cursor := gap.cursor, keyAllowed := ts.keyAllowed || (gap.ended && !ts.inFlow), keys
        indent, outer, queue := ts.queue ++ more } := .append rfl hkeys rfl hlength.le
    have horder : Ordered (kinds { ts with
        cursor := gap.cursor, keyAllowed := ts.keyAllowed || (gap.ended && !ts.inFlow), keys
        indent, outer, queue := ts.queue ++ more }) := by
      rw [kinds, List.map_append]
      exact he.order.append (List.forall_mem_map.mpr hnomark)
    -- What is read is the end once more.
    unfold fetchToken
    simp only [hrest]
    refine (ended_fetchEnd hsound hrest horder).mono ?_
    rintro us ⟨hus, hended, hend⟩
    have hgrown := hadds.trans hend
    refine ⟨⟨hus, Or.inr hended⟩, hgrown.kept, hgrown.known, ?_⟩
    have hlength := hgrown.length
    simp only [pending, hended.done, he.done, hended.rest, he.rest, List.length_nil]
    omega

end TokenStream

end StylesheetTrace.Yaml
