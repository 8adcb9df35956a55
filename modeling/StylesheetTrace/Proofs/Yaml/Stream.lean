import Mathlib.Data.List.TakeWhile
import StylesheetTrace.Proofs.Yaml.Ahead

/-!
# Streams of tokens

The marks of a text are its anchors and aliases. A stream of tokens is one of a text (`Sound`) when what
is left to read is a tail of the text, the marks among the tokens that were read are written in the text,
and the candidates for keys are such tokens. Before a stream reaches the end of its text (`Open`), it can
only be read on (`Turn`): the marks stay where they are and further ones come behind them, and so does the
first token once no colon can make it a key (`Known`).
-/

namespace StylesheetTrace.Yaml

open Cursor

variable {s : List Char}

/-! ## Marks -/

/-- The name is written in the text behind its sign. -/
def Written (s : List Char) (sign : Char) (name : String) : Prop :=
  ∃ before behind, s = before ++ sign :: (name.toList ++ behind) ∧ name.toList ≠ [] ∧
    (∀ c ∈ name.toList, isAnchorChar c = true) ∧ ∀ c ∈ behind.head?, endsAnchor c = true

namespace TokenKind

/-- An anchor or an alias. -/
def isMark : TokenKind → Bool
  | anchor _ | aliasOf _ => true
  | _ => false

/-- The kind itself, if it is a mark. -/
def marks (k : TokenKind) : List TokenKind := if k.isMark then [k] else []

/-- A mark is written in the text. -/
def IsWritten (s : List Char) : TokenKind → Prop
  | anchor name => Written s '&' name
  | aliasOf name => Written s '*' name
  | _ => True

end TokenKind

/-- What is no mark is written, whatever the text is. -/
theorem isWritten_of_isMark_eq_false {k : TokenKind} (h : k.isMark = false) : k.IsWritten s := by
  cases k with
  | anchor name | aliasOf name => exact absurd h (by simp [TokenKind.isMark])
  | _ => trivial

/-- A name is read from where it is written. -/
theorem written_of_anchorName {c : Cursor} {sign : Char} {rest : List Char} (hc : c.rest = sign :: rest)
    (hs : c.rest <:+ s) :
    Ensures (anchorName c) fun r => Written s sign r.1 ∧ Ahead c.step r.2 := by
  unfold anchorName
  dsimp only [Cursor.takeWhile]
  have hstep : c.step.rest = rest := by rw [rest_step, hc]; rfl
  split
  · exact .error
  · rename_i hname
    refine .ok ⟨?_, ahead_skipWhile _ _⟩
    simp only [Bool.or_eq_true, not_or, List.isEmpty_iff, Bool.not_eq_true', Bool.not_eq_false, peek,
      rest_skipWhile, hstep] at hname
    obtain ⟨before, hbefore⟩ := hs
    refine ⟨before, rest.dropWhile isAnchorChar, ?_, ?_, ?_, ?_⟩
    · rw [String.toList_ofList, hstep, List.takeWhile_append_dropWhile, ← hbefore, hc]
    · rw [String.toList_ofList, hstep]
      exact hname.1
    · rw [String.toList_ofList, hstep]
      exact fun d hd => List.mem_takeWhile_imp hd
    · intro d hd
      have hpeek := hname.2
      rwa [List.headD_eq_head?_getD, Option.mem_def.mp hd] at hpeek

/-! ## Candidates for keys -/

/-- The candidates for keys at a level, when `taken` tokens were taken. -/
structure Keyed (keys : List (Nat × KeyCandidate)) (level taken : Nat) (queue : List Token) : Prop where
  /-- The candidates of inner levels follow those of outer ones. -/
  sorted : keys.Pairwise fun k l => l.1 < k.1 ∧ l.2.number < k.2.number
  /-- No candidate is of a level that is not open. -/
  level_le : ∀ k ∈ keys, k.1 ≤ level
  /-- The candidates are tokens of the queue and no comments. -/
  token : ∀ k ∈ keys, taken ≤ k.2.number ∧
    ∃ t, queue[k.2.number - taken]? = some t ∧ t.comment? = none

namespace Keyed

variable {keys : List (Nat × KeyCandidate)} {level taken : Nat} {queue : List Token} {t : Token}

/-- There are no candidates. -/
theorem nil : Keyed [] level taken queue :=
  ⟨List.Pairwise.nil, List.forall_mem_nil _, List.forall_mem_nil _⟩

/-- Candidates are given up. -/
theorem sublist (h : Keyed keys level taken queue) {less : List (Nat × KeyCandidate)}
    (hless : less.Sublist keys) : Keyed less level taken queue :=
  ⟨h.sorted.sublist hless, fun k hk => h.level_le k (hless.mem hk), fun k hk => h.token k (hless.mem hk)⟩

/-- Tokens are read. -/
theorem append (h : Keyed keys level taken queue) (more : List Token) :
    Keyed keys level taken (queue ++ more) := by
  refine ⟨h.sorted, h.level_le, fun k hk => ?_⟩
  obtain ⟨hle, t, ht, hcomment⟩ := h.token k hk
  refine ⟨hle, t, ?_, hcomment⟩
  rw [List.getElem?_append_left (List.getElem?_eq_some_iff.mp ht).1, ht]

/-- The level changes. -/
theorem withLevel (h : Keyed keys level taken queue) {l : Nat} (hl : ∀ k ∈ keys, k.1 ≤ l) :
    Keyed keys l taken queue :=
  ⟨h.sorted, hl, h.token⟩

/-- A token that is read becomes the candidate of the level, which had none. -/
theorem cons (h : Keyed keys level taken queue) (hlevel : ∀ k ∈ keys, k.1 ≠ level)
    (ht : t.comment? = none) {k : KeyCandidate} (hk : k.number = taken + queue.length) :
    Keyed ((level, k) :: keys) level taken (queue ++ [t]) := by
  have hold := h.append [t]
  refine ⟨List.pairwise_cons.mpr ⟨fun l hl => ⟨?_, ?_⟩, h.sorted⟩,
    List.forall_mem_cons.mpr ⟨le_rfl, h.level_le⟩,
    List.forall_mem_cons.mpr ⟨⟨?_, t, ?_, ht⟩, hold.token⟩⟩
  · -- The level had no candidate, so that the others are those of outer levels.
    exact lt_of_le_of_ne (h.level_le l hl) (hlevel l hl)
  · obtain ⟨hle, u, hu, -⟩ := h.token l hl
    have hlt := (List.getElem?_eq_some_iff.mp hu).1
    change l.2.number < k.number
    omega
  · change taken ≤ k.number
    omega
  · change (queue ++ [t])[k.number - taken]? = some t
    rw [hk, Nat.add_sub_cancel_left, List.getElem?_concat_length]

/-- The candidate of the level comes behind all others. -/
theorem number_lt (h : Keyed keys level taken queue) {k : KeyCandidate} (hk : (level, k) ∈ keys)
    {l : Nat × KeyCandidate} (hl : l ∈ keys) (hne : l.1 ≠ level) : l.2.number < k.number := by
  obtain ⟨before, behind, rfl⟩ := List.append_of_mem hk
  have hsorted := h.sorted
  rw [List.pairwise_append, List.pairwise_cons] at hsorted
  obtain ⟨-, ⟨hbehind, -⟩, hbefore⟩ := hsorted
  rcases List.mem_append.mp hl with hl | hl
  · -- A candidate in front of it would belong to an inner level.
    have hinner := (hbefore l hl _ List.mem_cons_self).1
    exact absurd (h.level_le l (List.mem_append_left _ hl)) (Nat.not_le.mpr hinner)
  · rcases List.mem_cons.mp hl with rfl | hl
    · exact absurd rfl hne
    · exact (hbehind l hl).2

/-- Tokens are put before the candidate of the level, which is given up. -/
theorem insert (h : Keyed keys level taken queue) {k : KeyCandidate} (hk : (level, k) ∈ keys)
    (more : List Token) :
    Keyed (keys.filter fun l => l.1 != level) level taken
      (queue.take (k.number - taken) ++ (more ++ queue.drop (k.number - taken))) := by
  have hless := h.sublist (List.filter_sublist (p := fun l => l.1 != level))
  refine ⟨hless.sorted, hless.level_le, fun l hl => ?_⟩
  obtain ⟨hle, u, hu, hcomment⟩ := hless.token l hl
  obtain ⟨hmem, hne⟩ := List.mem_filter.mp hl
  -- The other candidates stand in front of the place, where no token moves.
  have hlt := h.number_lt hk hmem (bne_iff_ne.mp hne)
  have hlength := (List.getElem?_eq_some_iff.mp hu).1
  refine ⟨hle, u, ?_, hcomment⟩
  rw [List.getElem?_append_left (by rw [List.length_take]; omega), List.getElem?_take_of_lt (by omega), hu]

/-- Only the comments of tokens change. -/
theorem congr (h : Keyed keys level taken queue) {queue' : List Token}
    (hkinds : queue'.map Token.kind = queue.map Token.kind) : Keyed keys level taken queue' := by
  refine ⟨h.sorted, h.level_le, fun k hk => ?_⟩
  obtain ⟨hle, t, ht, hcomment⟩ := h.token k hk
  have hkind : (queue'.map Token.kind)[k.2.number - taken]? = some t.kind := by
    rw [hkinds, List.getElem?_map, ht]
    rfl
  rw [List.getElem?_map, Option.map_eq_some_iff] at hkind
  obtain ⟨u, hu, hkind⟩ := hkind
  exact ⟨hle, u, hu, by rwa [Token.comment?, hkind]⟩

/-- The first token goes, which is no candidate. -/
theorem drop (h : Keyed keys level taken (t :: queue)) (hfirst : ∀ k ∈ keys, taken < k.2.number) :
    Keyed keys level (taken + 1) queue := by
  refine ⟨h.sorted, h.level_le, fun k hk => ⟨hfirst k hk, ?_⟩⟩
  obtain ⟨-, u, hu, hcomment⟩ := h.token k hk
  have hlt := hfirst k hk
  rw [show k.2.number - taken = (k.2.number - (taken + 1)) + 1 by omega, List.getElem?_cons_succ] at hu
  exact ⟨u, hu, hcomment⟩

/-- The second token goes, which is a comment, while the first is no candidate. -/
theorem dropSecond {u : Token} (h : Keyed keys level taken (t :: u :: queue))
    (hfirst : ∀ k ∈ keys, taken < k.2.number) (hu : u.comment? ≠ none) :
    Keyed keys level (taken + 1) (t :: queue) ∧ ∀ k ∈ keys, taken + 1 < k.2.number := by
  have hsecond : ∀ k ∈ keys, taken + 1 < k.2.number := by
    intro k hk
    refine lt_of_le_of_ne (hfirst k hk) fun heq => ?_
    obtain ⟨-, v, hv, hcomment⟩ := h.token k hk
    rw [← heq, Nat.add_sub_cancel_left, List.getElem?_cons_succ, List.getElem?_cons_zero] at hv
    obtain rfl := Option.some.inj hv
    exact hu hcomment
  refine ⟨⟨h.sorted, h.level_le, fun k hk => ⟨(hsecond k hk).le, ?_⟩⟩, hsecond⟩
  obtain ⟨-, v, hv, hcomment⟩ := h.token k hk
  have hlt := hsecond k hk
  rw [show k.2.number - taken = (k.2.number - (taken + 2)) + 1 + 1 by omega, List.getElem?_cons_succ,
    List.getElem?_cons_succ] at hv
  refine ⟨v, ?_, hcomment⟩
  rw [show k.2.number - (taken + 1) = (k.2.number - (taken + 2)) + 1 by omega,
    List.getElem?_cons_succ, hv]

end Keyed

/-! ## Streams of a text -/

namespace TokenStream

variable {ts us vs : TokenStream} {m n : Nat} {more : List Token}

/-- The stream is one of the text. -/
structure Sound (s : List Char) (ts : TokenStream) : Prop where
  /-- What is left to read is a tail of the text. -/
  rest : ts.cursor.rest <:+ s
  /-- The size is that of the text. -/
  size : ts.cursor.size = s.length
  /-- The marks that were read are written in the text. -/
  written : ∀ t ∈ ts.queue, t.kind.IsWritten s
  /-- The candidates for keys are tokens that were read. -/
  keyed : Keyed ts.keys ts.level ts.taken ts.queue

/-- The kinds of the tokens that were read and not taken. -/
def kinds (ts : TokenStream) : List TokenKind := ts.queue.map Token.kind

/-- The marks that were read and not taken. -/
def marks (ts : TokenStream) : List TokenKind := ts.kinds.filter TokenKind.isMark

/-- The end of the text was not reached. -/
structure Open (ts : TokenStream) : Prop where
  /-- The end is not among the tokens. -/
  goesOn : TokenKind.streamEnd ∉ ts.kinds
  /-- Nothing says that the end was reached. -/
  done : ts.done = false

/-- Behind the end of the text there are no marks. -/
def Ordered (ks : List TokenKind) : Prop := ks.Pairwise fun k l => k = .streamEnd → l.isMark = false

/-- Tokens that are no marks may follow. -/
theorem Ordered.append {ks more : List TokenKind} (h : Ordered ks)
    (hmore : ∀ k ∈ more, k.isMark = false) : Ordered (ks ++ more) :=
  List.pairwise_append.mpr ⟨h, List.pairwise_iff_forall_sublist.mpr fun hkl _ =>
    hmore _ (hkl.mem (by simp)), fun _ _ l hl _ => hmore l hl⟩

/-- The end of the text was reached. -/
structure Ended (ts : TokenStream) : Prop where
  /-- The stream says so. -/
  done : ts.done = true
  /-- Nothing is left to read. -/
  rest : ts.cursor.rest = []
  /-- No token can become a key any more. -/
  keys : ts.keys = []
  /-- The end is among the tokens. -/
  mem : TokenKind.streamEnd ∈ ts.kinds
  /-- Behind the end there are no marks. -/
  order : Ordered ts.kinds

/-- The first token is of a kind, and no colon can make it a key any more. -/
structure Known (kind : TokenKind) (ts : TokenStream) : Prop where
  /-- The first token is of the kind. -/
  head : ts.kinds.head? = some kind
  /-- No candidate for a key is the first token. -/
  keys : ∀ k ∈ ts.keys, ts.taken < k.2.number

instance (kind : TokenKind) (ts : TokenStream) : Decidable (Known kind ts) :=
  decidable_of_iff (ts.kinds.head? = some kind ∧ ∀ k ∈ ts.keys, ts.taken < k.2.number)
    ⟨fun h => ⟨h.1, h.2⟩, fun h => ⟨h.head, h.keys⟩⟩

/-- Of two streams of one text the second has read on. -/
structure Adds (n : Nat) (ts us : TokenStream) : Prop where
  /-- No token was taken. -/
  taken : us.taken = ts.taken
  /-- The marks of the first one come first in the second. -/
  kept : ts.marks <+: us.marks
  /-- The first token is the same if it was known. -/
  known : ∀ kind, Known kind ts → Known kind us
  /-- The second has at most `n` tokens and open collections more. -/
  length : us.queue.length + us.outer.length ≤ ts.queue.length + ts.outer.length + n

/-- Reading on twice. -/
theorem Adds.trans (h : Adds m ts us) (h' : Adds n us vs) : Adds (m + n) ts vs :=
  ⟨h'.taken.trans h.taken, h.kept.trans h'.kept, fun kind hk => h'.known kind (h.known kind hk),
    by have := h.length; have := h'.length; omega⟩

/-- A wider bound. -/
theorem Adds.mono (h : Adds m ts us) (hmn : m ≤ n) : Adds n ts us :=
  ⟨h.taken, h.kept, h.known, h.length.trans (by omega)⟩

/-- Tokens are read. -/
theorem Adds.append (hqueue : us.queue = ts.queue ++ more) (hkeys : us.keys.Sublist ts.keys)
    (htaken : us.taken = ts.taken) (hlength : more.length + us.outer.length ≤ ts.outer.length + n) :
    Adds n ts us := by
  have hkinds : us.kinds = ts.kinds ++ more.map Token.kind := by
    rw [kinds, hqueue, List.map_append]
    rfl
  refine ⟨htaken, ?_, fun kind h => ⟨?_, fun k hk => ?_⟩, ?_⟩
  · rw [marks, marks, hkinds, List.filter_append]
    exact List.prefix_append _ _
  · rw [hkinds, List.head?_append, h.head]
    rfl
  · rw [htaken]
    exact h.keys k (hkeys.mem hk)
  · rw [hqueue, List.length_append]
    omega

/-- Where tokens are read and the stream goes on, it went on before. -/
theorem Open.append (h : Open ts) (hqueue : us.queue = ts.queue ++ more)
    (hmore : ∀ t ∈ more, t.kind ≠ .streamEnd) (hdone : us.done = ts.done) : Open us := by
  refine ⟨fun hmem => ?_, hdone.trans h.done⟩
  rw [kinds, hqueue, List.map_append, List.mem_append] at hmem
  rcases hmem with hmem | hmem
  · exact h.goesOn hmem
  · obtain ⟨t, ht, hkind⟩ := List.mem_map.mp hmem
    exact hmore t ht hkind

/-- From one stream of the text to a later one, before the end is reached. -/
structure Turn (s : List Char) (n : Nat) (ts us : TokenStream) : Prop where
  /-- The later stream is one of the text. -/
  sound : Sound s us
  /-- The end is not reached. -/
  isOpen : Open us
  /-- At most `n` tokens and open collections came in. -/
  adds : Adds n ts us
  /-- The later stream stands at the same position or further on. -/
  ahead : Ahead ts.cursor us.cursor

/-- A wider bound. -/
theorem Turn.mono (h : Turn s m ts us) (hmn : m ≤ n) : Turn s n ts us :=
  ⟨h.sound, h.isOpen, h.adds.mono hmn, h.ahead⟩

/-- One turn behind another. -/
theorem Turn.trans (h : Turn s m ts us) (h' : Turn s n us vs) : Turn s (m + n) ts vs :=
  ⟨h'.sound, h'.isOpen, h.adds.trans h'.adds, h.ahead.trans h'.ahead⟩

/-- Tokens are read, and candidates for keys may be given up. -/
theorem Sound.append (h : Sound s ts) (hcursor : Ahead ts.cursor us.cursor)
    (hqueue : us.queue = ts.queue ++ more) (hmore : ∀ t ∈ more, t.kind.IsWritten s)
    (hkeys : us.keys.Sublist ts.keys) (hlevel : ∀ k ∈ us.keys, k.1 ≤ us.level)
    (htaken : us.taken = ts.taken) : Sound s us := by
  refine ⟨hcursor.rest.trans h.rest, hcursor.size.trans h.size, fun t ht => ?_, ?_⟩
  · rw [hqueue, List.mem_append] at ht
    exact ht.elim (h.written t) (hmore t)
  · rw [hqueue, htaken]
    exact ((h.keyed.sublist hkeys).append more).withLevel hlevel

/-- Tokens are read, none of which ends the text, and candidates for keys may be given up. -/
theorem Turn.append (h : Sound s ts) (ho : Open ts) (hcursor : Ahead ts.cursor us.cursor)
    (hqueue : us.queue = ts.queue ++ more)
    (hmore : ∀ t ∈ more, t.kind.IsWritten s ∧ t.kind ≠ .streamEnd)
    (hkeys : us.keys.Sublist ts.keys) (hlevel : ∀ k ∈ us.keys, k.1 ≤ us.level)
    (htaken : us.taken = ts.taken) (hdone : us.done = ts.done)
    (hlength : more.length + us.outer.length ≤ ts.outer.length + n) : Turn s n ts us :=
  ⟨h.append hcursor hqueue (fun t ht => (hmore t ht).1) hkeys hlevel htaken,
    ho.append hqueue (fun t ht => (hmore t ht).2) hdone, .append hqueue hkeys htaken hlength, hcursor⟩

/-- A token of another kind is no comment. -/
theorem comment?_eq_none {t : Token} (h : ∀ c, t.kind ≠ .comment c) : t.comment? = none := by
  unfold Token.comment?
  split
  · rename_i c hc
    exact absurd hc (h c)
  · rfl

/-! ## Candidates of a stream -/

/-- Stale candidates are given up. -/
theorem dropStale_spec (ts : TokenStream) :
    Ensures ts.dropStale fun us => ∃ keys, us = { ts with keys } ∧ keys.Sublist ts.keys :=
  .ite (fun _ => .error) fun _ => .ok ⟨_, rfl, List.filter_sublist⟩

/-- The candidate of the level is given up. -/
theorem dropKey_spec (ts : TokenStream) :
    Ensures ts.dropKey fun us => ∃ keys, us = { ts with keys } ∧ keys.Sublist ts.keys ∧
      ∀ k ∈ keys, k.1 ≠ ts.level := by
  unfold dropKey
  split
  · rename_i hnone
    refine .ok ⟨ts.keys, rfl, List.Sublist.refl _, fun k hk heq => ?_⟩
    exact absurd (List.lookup_eq_none_iff.mp hnone k hk) (by simp [heq])
  · exact .ite (fun _ => .error) fun _ =>
      .ok ⟨_, rfl, List.filter_sublist, fun k hk => bne_iff_ne.mp (List.mem_filter.mp hk).2⟩

/-- What is known of the candidates after the next token was made one, before it is read. -/
structure Saved (ts : TokenStream) (keys : List (Nat × KeyCandidate)) : Prop where
  /-- They are candidates once the token is there, whatever it is. -/
  keyed : ∀ t : Token, t.comment? = none → Keyed keys ts.level ts.taken (ts.queue ++ [t])
  /-- A first token that was known does not become one. -/
  known : ∀ kind, Known kind ts → ∀ k ∈ keys, ts.taken < k.2.number

/-- The next token becomes a candidate, where a key may begin. -/
theorem saveKey_spec (h : Sound s ts) :
    Ensures ts.saveKey fun us => ∃ keys, us = { ts with keys } ∧ Saved ts keys := by
  refine .ite (fun _ => .ok ⟨ts.keys, rfl, fun t _ => h.keyed.append [t], fun _ hk => hk.keys⟩)
    fun _ => .map ((dropKey_spec ts).mono ?_)
  rintro us ⟨keys, rfl, hkeys, hlevel⟩
  refine ⟨_, rfl, fun t ht => (h.keyed.sublist hkeys).cons hlevel ht rfl, fun kind hk => ?_⟩
  refine List.forall_mem_cons.mpr ⟨?_, fun k hmem => hk.keys k (hkeys.mem hmem)⟩
  -- Where the first token is known there is one, and the next token comes behind it.
  have hpos : 0 < ts.queue.length := by
    have hhead := hk.head
    rw [kinds, List.head?_map] at hhead
    cases hqueue : ts.queue with
    | nil => rw [hqueue] at hhead; exact absurd hhead (by simp)
    | cons t rest => exact Nat.succ_pos _
  change ts.taken < ts.taken + ts.queue.length
  omega

/-- A token that was made a candidate is read. -/
theorem Turn.saved (h : Sound s ts) (ho : Open ts) {keys : List (Nat × KeyCandidate)}
    (hkeys : Saved ts keys) {t : Token} (ht : t.comment? = none) (hwritten : t.kind.IsWritten s)
    (hend : t.kind ≠ .streamEnd) (hcursor : Ahead ts.cursor us.cursor)
    (hqueue : us.queue = ts.queue ++ [t]) (hus : us.keys = keys) (hlevel : ts.level ≤ us.level)
    (htaken : us.taken = ts.taken) (hdone : us.done = ts.done) (houter : us.outer = ts.outer) :
    Turn s 1 ts us := by
  have hkeyed := hkeys.keyed t ht
  -- But for the candidates, it is a token that is read.
  have hgrown : Adds 1 ts { us with keys := [] } := .append hqueue (List.nil_sublist _) htaken
    (by rw [List.length_singleton, houter, Nat.add_comm])
  refine ⟨⟨hcursor.rest.trans h.rest, hcursor.size.trans h.size, fun u hu => ?_, ?_⟩,
    ho.append hqueue (List.forall_mem_singleton.mpr hend) hdone,
    ⟨htaken, hgrown.kept, fun kind hk => ⟨(hgrown.known kind hk).head, ?_⟩, hgrown.length⟩, hcursor⟩
  · rw [hqueue, List.mem_append] at hu
    rcases hu with hu | hu
    · exact h.written u hu
    · obtain rfl := List.mem_singleton.mp hu
      exact hwritten
  · rw [hqueue, htaken, hus]
    exact hkeyed.withLevel fun k hk => (hkeyed.level_le k hk).trans hlevel
  · rw [hus, htaken]
    exact hkeys.known kind hk

/-! ## Indentation -/

/-- The block collections that end are no longer around. -/
theorem length_unwound (column indent : Int) (outer : List Int) :
    (unwound column indent outer).1 + (unwound column indent outer).2.2.length = outer.length := by
  induction outer generalizing indent with
  | nil => rfl
  | cons next outer ih =>
    unfold unwound
    split
    · have := ih next
      simp only [List.length_cons]
      omega
    · simp

/-- The ends of block collections are read, and nothing else. -/
theorem unwind_spec (ts : TokenStream) (column : Int) :
    ∃ indent outer, ∃ more : List Token,
      ts.unwind column = { ts with indent, outer, queue := ts.queue ++ more } ∧
        (∀ t ∈ more, t.kind = .blockEnd) ∧ more.length + outer.length = ts.outer.length := by
  unfold unwind
  split
  · exact ⟨ts.indent, ts.outer, [], by rw [List.append_nil], List.forall_mem_nil _, by simp⟩
  · refine ⟨_, _, _, rfl, fun t ht => ?_, ?_⟩
    · obtain ⟨-, rfl⟩ := List.mem_replicate.mp ht
      rfl
    · rw [List.length_replicate]
      exact length_unwound column ts.indent ts.outer

/-- Block collections end. -/
theorem turn_unwind (h : Sound s ts) (ho : Open ts) (column : Int) :
    Turn s 0 ts (ts.unwind column) := by
  obtain ⟨indent, outer, more, heq, hmore, hlength⟩ := unwind_spec ts column
  rw [heq]
  refine .append h ho (Ahead.refl _) rfl (fun t ht => ?_) (List.Sublist.refl _) h.keyed.level_le rfl rfl
    hlength.le
  rw [hmore t ht]
  exact ⟨trivial, by simp⟩

end TokenStream

end StylesheetTrace.Yaml
