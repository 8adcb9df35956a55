import StylesheetTrace.Proofs.Finding.Name
import StylesheetTrace.Proofs.Text.LineEnds
import StylesheetTrace.Proofs.Text.Reading

/-!
# The strategies that name elements

Six strategies are asked for the elements that a finding is about, in order. The first one that names
an element other than a root decides: its names other than roots are given, each once, in the order
in which they first occur (`names_eq_chosen`). The first strategy asks the table of rules; the other
ones read names from the message, where each of them stands as it is (`infix_of_mem_strategies`). So no
name is invented (`names_of_message`).
-/

namespace StylesheetTrace.Finding

open StylesheetTrace.Text

/-! ## Names without roots and repetitions -/

/-- The names other than roots, each once. -/
structure Chosen (roots names chosen : List String) : Prop where
  /-- What is chosen are the names other than roots. -/
  mem_iff : ∀ n, n ∈ chosen ↔ n ∈ names ∧ n ∉ roots
  /-- They are in the order of their first occurrences, so that none comes twice. -/
  ordered : chosen.Pairwise fun m n => names.idxOf m < names.idxOf n

/-- In a list from which elements were left out, the others follow one another as before. -/
theorem idxOf_lt_of_filter {p : String → Bool} {l : List String} {m n : String}
    (hm : p m = true) (hn : p n = true) (h : (l.filter p).idxOf m < (l.filter p).idxOf n) :
    l.idxOf m < l.idxOf n := by
  induction l with
  | nil => exact h
  | cons a l ih =>
    rw [List.filter_cons] at h
    rw [List.idxOf_cons, List.idxOf_cons]
    split at h
    · -- The head is kept: it is the first of the two, or neither of them.
      rw [List.idxOf_cons, List.idxOf_cons] at h
      cases hma : a == m <;> cases hna : a == n <;> simp only [hma, hna, cond_true, cond_false] at h ⊢
      · have hlt := ih (Nat.lt_of_succ_lt_succ h)
        omega
      all_goals omega
    · rename_i ha
      have hma : (a == m) = false := beq_false_of_ne fun heq => ha (heq ▸ hm)
      have hna : (a == n) = false := beq_false_of_ne fun heq => ha (heq ▸ hn)
      have hlt := ih h
      rw [hma, hna, cond_false, cond_false]
      omega

/-- Without its repetitions a list is in the order of the first occurrences. -/
theorem pairwise_eraseDups (l : List String) :
    l.eraseDups.Pairwise fun m n => l.idxOf m < l.idxOf n := by
  induction hn : l.length using Nat.strongRecOn generalizing l with
  | _ n ih =>
    cases l with
    | nil => simp
    | cons a l =>
      have hlen := List.length_filter_le (fun b => !b == a) l
      rw [List.length_cons] at hn
      rw [List.eraseDups_cons, List.pairwise_cons]
      have hne : ∀ b ∈ (l.filter fun b => !b == a).eraseDups, b ≠ a := by
        intro b hb
        rw [List.mem_eraseDups, List.mem_filter] at hb
        simpa using hb.2
      have hbehind : ∀ b ≠ a, (a :: l).idxOf b = l.idxOf b + 1 := fun b hb =>
        List.idxOf_cons_ne l (Ne.symm hb)
      constructor
      · intro b hb
        rw [List.idxOf_cons_self, hbehind b (hne b hb)]
        omega
      · refine (ih _ (by omega) _ rfl).imp_of_mem fun {b c} hb hc hlt => ?_
        rw [hbehind b (hne b hb), hbehind c (hne c hc)]
        have hfilter := idxOf_lt_of_filter (by simpa using hne b hb) (by simpa using hne c hc) hlt
        omega

/-- What is given of the names of a strategy. -/
theorem chosen_specific (roots names : List String) : Chosen roots names (specific roots names) where
  mem_iff n := by
    rw [specific, List.mem_filter, List.mem_eraseDups]
    simp
  ordered := (pairwise_eraseDups names).sublist List.filter_sublist

namespace Chosen

variable {roots names chosen : List String} (h : Chosen roots names chosen)
include h

/-- No name is given twice. -/
theorem nodup : chosen.Nodup := by
  refine h.ordered.imp ?_
  rintro m n hlt rfl
  exact Nat.lt_irrefl _ hlt

/-- None is given exactly when there are only roots. -/
theorem eq_nil_iff : chosen = [] ↔ ∀ n ∈ names, n ∈ roots := by
  rw [List.eq_nil_iff_forall_not_mem]
  refine forall_congr' fun n => ?_
  rw [h.mem_iff]
  tauto

end Chosen

/-! ## Names that stand in the message -/

/-- A name that was read between apostrophes stands there. -/
theorem infix_of_nameInQuotes? {s name rest : List Char} (h : nameInQuotes? s = some (name, rest)) :
    name <:+: s := by
  unfold nameInQuotes? at h
  simp only [Option.bind_eq_bind, Option.bind_eq_some_iff, Option.some.injEq, Prod.mk.injEq] at h
  obtain ⟨⟨w, t⟩, hword, u, -, rfl, -⟩ := h
  obtain ⟨rfl, -⟩ := word?_eq_some hword
  exact (List.prefix_append w t).isInfix

/-- Behind a namespace in braces a tail of the text is left. -/
theorem skipBraces_suffix (s : List Char) : skipBraces s <:+ s := by
  unfold skipBraces
  split
  · rename_i t
    cases hbraces : afterFirst? ['\x7d'] t with
    | none => exact List.suffix_refl _
    | some u => exact (suffix_of_afterFirst? hbraces).trans (List.suffix_cons _ t)
  · exact List.suffix_refl s

/-- Behind a word regardless of case a tail of the text is left. -/
theorem suffix_of_afterCaseless? {w s rest : List Char} (h : afterCaseless? w s = some rest) :
    rest <:+ s := by
  obtain ⟨v, -, rfl⟩ := exists_of_afterCaseless? h
  exact List.suffix_append v rest

/-- Behind a prefix and its colon a tail of the text is left. -/
theorem suffix_of_afterCaselessPrefix? {s rest : List Char}
    (h : afterCaselessPrefix? s = some rest) : rest <:+ s := by
  obtain ⟨⟨w, t⟩, hrun, hcolon⟩ := Option.bind_eq_some_iff.mp h
  obtain ⟨rfl, -⟩ := run?_eq_some.mp hrun
  exact (suffix_of_after? hcolon).trans (List.suffix_append w t)

/-- The name in the message of a schema validator stands there. -/
theorem infix_of_schemaElement? {s name rest : List Char}
    (h : schemaElement? s = some (name, rest)) : name <:+: s := by
  unfold schemaElement? at h
  simp only [Option.bind_eq_bind, Option.bind_eq_some_iff] at h
  obtain ⟨t, ht, ⟨blanks, u⟩, hblanks, v, hv, hname⟩ := h
  obtain ⟨rfl, -⟩ := run?_eq_some.mp hblanks
  have htail : skipBraces v <:+ s :=
    (((skipBraces_suffix v).trans (suffix_of_after? hv)).trans (List.suffix_append blanks u)).trans
      (suffix_of_afterCaseless? ht)
  rcases Option.or_eq_some_iff.mp hname with hbehind | ⟨-, hplain⟩
  · obtain ⟨x, hx, hquoted⟩ := Option.bind_eq_some_iff.mp hbehind
    exact (infix_of_nameInQuotes? hquoted).trans ((suffix_of_afterCaselessPrefix? hx).trans htail).isInfix
  · exact (infix_of_nameInQuotes? hplain).trans htail.isInfix

/-- A document prefix with its name is read from the characters of a text. -/
theorem mention?_eq_some {s name rest : List Char} (h : mention? s = some (name, rest)) :
    ∃ p ∈ documentPrefixes, s = p.toList ++ ':' :: (name ++ rest) := by
  obtain ⟨t, ht, hname⟩ := Option.bind_eq_some_iff.mp h
  obtain ⟨p, hp, hafter⟩ := List.exists_of_findSome?_eq_some ht
  obtain ⟨rfl, -⟩ := word?_eq_some hname
  refine ⟨p, hp, ?_⟩
  rw [after?_eq_some.mp hafter, List.append_assoc, List.singleton_append]

/-- Reading mentions goes on in the text. -/
theorem advances_mentionOrRun : Advances mentionOrRun? := by
  intro s a rest h
  unfold mentionOrRun? at h
  split at h
  · rename_i name t hmention
    obtain ⟨p, hp, rfl⟩ := mention?_eq_some hmention
    obtain ⟨-, rfl⟩ := Prod.mk.inj (Option.some.inj h)
    cases hchars : p.toList with
    | nil => exact ⟨':', name ++ t, rfl, List.suffix_append name t⟩
    | cons c cs =>
      refine ⟨c, cs ++ ':' :: (name ++ t), rfl, ?_⟩
      exact ((List.suffix_append name t).trans (List.suffix_cons ':' _)).trans
        (List.suffix_append cs _)
  · obtain ⟨⟨w, t⟩, hrun, heq⟩ := Option.map_eq_some_iff.mp h
    obtain ⟨-, rfl⟩ := Prod.mk.inj heq
    obtain ⟨rfl, hne, -⟩ := run?_eq_some.mp hrun
    obtain ⟨c, w, rfl⟩ := List.exists_cons_of_ne_nil hne
    exact ⟨c, w ++ t, rfl, List.suffix_append w t⟩

/-- A name with a document prefix stands in the text. -/
theorem infix_of_mentionOrRun? {s name rest : List Char}
    (h : mentionOrRun? s = some (some name, rest)) : name <:+: s := by
  unfold mentionOrRun? at h
  split at h
  · rename_i word t hmention
    obtain ⟨p, -, rfl⟩ := mention?_eq_some hmention
    obtain ⟨heq, -⟩ := Prod.mk.inj (Option.some.inj h)
    obtain rfl := Option.some.inj heq
    exact ⟨p.toList ++ [':'], t, by simp⟩
  · obtain ⟨found, -, heq⟩ := Option.map_eq_some_iff.mp h
    exact absurd (Prod.mk.inj heq).1 (by simp)

/-- What is read behind a namespace in braces is read behind the closing one. -/
theorem braced?_eq_some {α : Type} {r : Reader α} {s rest : List Char} {a : α}
    (h : braced? r s = some (a, rest)) :
    ∃ t, '\x7d' :: t <:+ s ∧ r t = some (a, rest) := by
  unfold braced? at h
  split at h
  · rename_i u
    obtain ⟨t, ht, hread⟩ := Option.bind_eq_some_iff.mp h
    rw [afterFirst?_eq_map_cutFrom?, Option.map_eq_some_iff] at ht
    obtain ⟨⟨before, t'⟩, hcut, rfl⟩ := ht
    obtain ⟨rfl, -⟩ := cut?_eq_some (by simp) hcut
    refine ⟨t', ?_, hread⟩
    exact (List.suffix_append before _).trans (List.suffix_cons _ _)
  · exact absurd h (by simp)

/-- The name that the message of a schema validator expects stands there. -/
theorem expectedElement?_eq_some {s name rest : List Char}
    (h : expectedElement? s = some (name, rest)) :
    ∃ u, s = "Expected".toList ++ u ∧ name <:+: u ∧ rest <:+ u := by
  obtain ⟨u, hu, hline⟩ := Option.bind_eq_some_iff.mp h
  obtain ⟨skipped, v, rfl, -, hbraced⟩ := inLine?_eq_some hline
  obtain ⟨t, ht, hname⟩ := braced?_eq_some hbraced
  obtain ⟨rfl, -⟩ := word?_eq_some hname
  have htail : name ++ rest <:+ skipped ++ v :=
    ((List.suffix_cons _ _).trans ht).trans (List.suffix_append skipped v)
  exact ⟨_, after?_eq_some.mp hu, (List.prefix_append name rest).isInfix.trans htail.isInfix,
    (List.suffix_append name rest).trans htail⟩

/-- Reading expected names goes on in the text. -/
theorem advances_expectedElement : Advances expectedElement? := by
  intro s name rest h
  obtain ⟨u, rfl, -, hrest⟩ := expectedElement?_eq_some h
  exact ⟨'E', "xpected".toList ++ u, rfl, hrest.trans (List.suffix_append _ u)⟩

/-- The path behind its phrase stands in the text. -/
theorem infix_of_pathPhrase? {s path rest : List Char}
    (h : pathPhrase? s = some (path, rest)) : path <:+: s := by
  unfold pathPhrase? at h
  simp only [Option.bind_eq_bind, Option.bind_eq_some_iff] at h
  obtain ⟨t, ht, u, hu, hif⟩ := h
  obtain ⟨verb, -, hverb⟩ := List.exists_of_findSome?_eq_some ht
  split at hif
  · exact absurd hif (by simp)
  · obtain ⟨rfl, -⟩ := Prod.mk.inj (Option.some.inj hif)
    have htail : u <:+ s := (suffix_of_afterCaseless? hu).trans (suffix_of_afterCaseless? hverb)
    exact (List.takeWhile_prefix _).isInfix.trans htail.isInfix

/-- A run of characters stands in the text. -/
theorem infix_of_mem_runsOf {p : Char → Bool} {s w : List Char} (h : w ∈ runsOf p s) : w <:+: s :=
  (infix_of_mem_splitWhere (List.mem_filter.mp h).1).1

/-- A word without the characters around it stands in the word. -/
theorem infix_trimWhile (p : Char → Bool) (w : List Char) : trimWhile p w <:+: w := by
  rw [trimWhile, dropEndWhile, ← List.reverse_infix, List.reverse_reverse]
  refine (List.dropWhile_suffix p).isInfix.trans ?_
  rw [List.reverse_infix]
  exact (List.dropWhile_suffix p).isInfix

/-- The names that are given as texts. -/
theorem mem_distinct {names : List (List Char)} {n : String} :
    n ∈ distinct names ↔ n.toList ∈ names := by
  rw [distinct, List.mem_eraseDups, List.mem_map]
  constructor
  · rintro ⟨w, hw, rfl⟩
    rwa [String.toList_ofList]
  · exact fun h => ⟨n.toList, h, String.ofList_toList⟩

/-- Whatever a strategy reads from the message stands there. -/
theorem infix_of_mem_strategies {table : RuleTable} {message : String} {ruleId : Option String}
    {names : List String} (h : names ∈ (strategies table message ruleId).tail) {n : String}
    (hn : n ∈ names) : n.toList <:+: message.toList := by
  simp only [strategies, List.tail_cons, List.mem_cons, List.not_mem_nil, or_false] at h
  rcases h with rfl | rfl | rfl | rfl | rfl
  · -- the element in apostrophes
    obtain ⟨form, hform, rfl⟩ := Option.map_eq_some_iff.mp (Option.mem_toList.mp hn)
    obtain ⟨t, rest, ht, hread⟩ := exists_of_firstForm? hform
    rw [String.toList_ofList]
    exact (infix_of_schemaElement? hread).trans ht.isInfix
  · -- names with a document prefix
    obtain ⟨found, hfound, hname⟩ := List.mem_filterMap.mp (mem_distinct.mp hn)
    obtain ⟨t, rest, ht, hread⟩ := exists_of_mem_forms advances_mentionOrRun hfound
    obtain rfl : found = some n.toList := hname
    exact (infix_of_mentionOrRun? hread).trans ht.isInfix
  · -- expected names
    obtain ⟨t, rest, ht, hread⟩ := exists_of_mem_forms advances_expectedElement (mem_distinct.mp hn)
    obtain ⟨u, rfl, hname, -⟩ := expectedElement?_eq_some hread
    exact hname.trans ((List.suffix_append _ u).trans ht).isInfix
  · -- a path in words
    unfold pathNames at hn
    split at hn
    · exact absurd hn List.not_mem_nil
    · rename_i path hpath
      obtain ⟨t, rest, ht, hread⟩ := exists_of_firstForm? hpath
      have hword := (List.mem_filter.mp (List.mem_reverse.mp (mem_distinct.mp hn))).1
      obtain ⟨w, hw, hname⟩ := List.mem_map.mp hword
      rw [← hname]
      exact (infix_trimWhile _ w).trans ((infix_of_mem_runsOf hw).trans
        ((infix_of_pathPhrase? hread).trans ht.isInfix))
  · -- compound words
    exact infix_of_mem_runsOf (List.mem_filter.mp (mem_distinct.mp hn)).1

/-! ## The strategy that decides -/

/-- Either a strategy decides, before which there are only roots, or there are only roots at all. -/
theorem names_eq_chosen (table : RuleTable) (roots : List String) (message : String)
    (ruleId : Option String) :
    (∃ before decisive behind,
      strategies table message ruleId = before ++ decisive :: behind ∧
      (∀ ns ∈ before, ∀ n ∈ ns, n ∈ roots) ∧ names table roots message ruleId ≠ [] ∧
      Chosen roots decisive (names table roots message ruleId)) ∨
    (names table roots message ruleId = [] ∧
      ∀ ns ∈ strategies table message ruleId, ∀ n ∈ ns, n ∈ roots) := by
  have hempty : ∀ ns, (!(specific roots ns).isEmpty) = false ↔ ∀ n ∈ ns, n ∈ roots := by
    intro ns
    rw [← (chosen_specific roots ns).eq_nil_iff]
    simp
  unfold names
  rw [List.find?_map]
  cases hfind : (strategies table message ruleId).find?
      ((fun ns => !ns.isEmpty) ∘ specific roots) with
  | none =>
    refine Or.inr ⟨rfl, fun ns hns => (hempty ns).mp ?_⟩
    have hnone := List.find?_eq_none.mp hfind ns hns
    simpa using hnone
  | some decisive =>
    obtain ⟨hne, before, behind, hall, hbefore⟩ := List.find?_eq_some_iff_append.mp hfind
    refine Or.inl ⟨before, decisive, behind, hall, fun ns hns => (hempty ns).mp ?_, ?_,
      chosen_specific roots decisive⟩
    · simpa using hbefore ns hns
    · simpa using hne

/-- The elements that a message is about are named by one strategy: by the table of rules, where it
names any other than roots, or else by the message, in which each of their names stands. There are none
only where all six strategies name nothing but roots. -/
theorem names_of_message (table : RuleTable) (roots : List String) (message : String)
    (ruleId : Option String) :
    (names table roots message ruleId).Nodup ∧
    (∀ n ∈ names table roots message ruleId, n ∉ roots) ∧
    ((∃ n ∈ table.targets ruleId, n ∉ roots) →
      Chosen roots (table.targets ruleId) (names table roots message ruleId)) ∧
    ((∀ n ∈ table.targets ruleId, n ∈ roots) →
      (∀ n ∈ names table roots message ruleId, n.toList <:+: message.toList) ∧
      ∃ ns ∈ (strategies table message ruleId).tail,
        Chosen roots ns (names table roots message ruleId)) ∧
    (names table roots message ruleId = [] ↔
      ∀ ns ∈ strategies table message ruleId, ∀ n ∈ ns, n ∈ roots) := by
  have htargets : table.targets ruleId ∈ strategies table message ruleId := List.mem_cons_self
  rcases names_eq_chosen table roots message ruleId with
    ⟨before, decisive, behind, hall, hbefore, hne, hchosen⟩ | ⟨hnil, hroots⟩
  · -- The strategy that decides has a name which is no root, so that it is not one of only roots.
    have hdecisive : decisive ∈ strategies table message ruleId := by rw [hall]; simp
    have hspecific : ¬ ∀ n ∈ decisive, n ∈ roots := fun h => hne (hchosen.eq_nil_iff.mpr h)
    refine ⟨hchosen.nodup, fun n hn => ((hchosen.mem_iff n).mp hn).2, ?_, ?_, ?_⟩
    · rintro ⟨n, hn, hroot⟩
      cases before with
      | nil =>
        obtain ⟨hfirst, -⟩ := List.cons.inj hall
        rw [hfirst]
        exact hchosen
      | cons ns before =>
        obtain ⟨hfirst, -⟩ := List.cons.inj hall
        exact absurd (hbefore ns List.mem_cons_self n (hfirst ▸ hn)) hroot
    · intro hroot
      have htail : decisive ∈ (strategies table message ruleId).tail := by
        cases before with
        | nil =>
          obtain ⟨hfirst, -⟩ := List.cons.inj hall
          exact absurd (hfirst ▸ hroot) hspecific
        | cons ns before => rw [hall]; simp
      exact ⟨fun n hn => infix_of_mem_strategies htail ((hchosen.mem_iff n).mp hn).1, decisive, htail,
        hchosen⟩
    · exact iff_of_false hne fun h => hspecific (h decisive hdecisive)
  · rw [hnil]
    refine ⟨List.nodup_nil, by simp, ?_, fun _ => ⟨by simp, ?_⟩, iff_of_true rfl hroots⟩
    · rintro ⟨n, hn, hroot⟩
      exact absurd (hroots _ htargets n hn) hroot
    · refine ⟨schemaNames message.toList, by simp [strategies], fun n => ?_, List.Pairwise.nil⟩
      have hschema := hroots (schemaNames message.toList) (by simp [strategies]) n
      simpa using hschema

/-- The one that names the elements in this message is the third strategy. -/
example : names .empty rootElements "cbc:Note behind cac:Invoice, cbc:ID and cbc:Note" none =
    ["Note", "ID"] := by decide +kernel

end StylesheetTrace.Finding
