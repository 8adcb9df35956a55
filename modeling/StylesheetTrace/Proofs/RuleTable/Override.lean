import Mathlib.Data.List.Forall2
import StylesheetTrace.Proofs.RuleTable.Merge
import StylesheetTrace.Proofs.Text.Refusal
import StylesheetTrace.Proofs.Text.Span
import StylesheetTrace.RuleTable.Override

/-!
# What a table of rules is overridden by

A value gives rules exactly when it is a mapping in which each key can be written and each value is a
name or a list of names (`rulesOf_eq_ok_iff`). A name is what the grammar of local names describes, from
its first character to its last, but that one line feed may stand behind it (`isElementName_iff`). The
other values are refused as tables of rules, unless a number in them is too long to be written.

A text that is refused is refused over any table. One that is not gives each of its rules the names that
it gives last, and leaves the names of any other rule as they are; only for the empty identifier, which
is taken for a missing one, no names are found. All of it is `overrideBy_gives`.
-/

namespace StylesheetTrace.RuleTable

open StylesheetTrace.Text StylesheetTrace.Yaml

/-! ## Names -/

/-- The text is the local name of an element. -/
def IsLocalName (s : List Char) : Prop :=
  ∃ c rest, s = c :: rest ∧ startsName c = true ∧ ∀ d ∈ rest, isNameChar d = true

/-- The text is accepted for a name: one line feed may stand behind the name. -/
def IsAccepted (n : String) : Prop :=
  IsLocalName n.toList ∨ ∃ s, n.toList = s ++ ['\n'] ∧ IsLocalName s

/-- The check of names accepts the local names, with a line feed behind them or without. -/
theorem isElementName_iff {n : String} : isElementName n.toList = true ↔ IsAccepted n := by
  have hline : isNameChar '\n' = false := by decide
  rw [IsAccepted]
  generalize n.toList = t
  constructor
  · intro h
    cases t with
    | nil => exact absurd h (by decide)
    | cons c rest =>
      rw [isElementName, Bool.and_eq_true, Bool.or_eq_true, beq_iff_eq, beq_iff_eq] at h
      obtain ⟨hc, hrest | hrest⟩ := h
      -- Behind the characters of a name there is nothing, or one line feed.
      · exact Or.inl ⟨c, rest, rfl, hc, List.dropWhile_eq_nil_iff.mp hrest⟩
      · refine Or.inr ⟨c :: rest.takeWhile isNameChar, ?_, c, _, rfl, hc, fun d hd => ?_⟩
        · rw [List.cons_append, ← hrest, List.takeWhile_append_dropWhile]
        · exact List.mem_takeWhile_imp hd
  · rintro (⟨c, rest, rfl, hc, hrest⟩ | ⟨s, rfl, c, rest, rfl, hc, hrest⟩)
    · simp [isElementName, hc, List.dropWhile_eq_nil_iff.mpr hrest]
    · have hdrop : (rest ++ ['\n']).dropWhile isNameChar = ['\n'] := by
        rw [List.dropWhile_append, List.dropWhile_eq_nil_iff.mpr hrest]
        simp [hline]
      simp [isElementName, hc, hdrop]

/-! ## Values -/

/-- The value is one name or a list of names. -/
def Names (v : Value) (names : List String) : Prop :=
  (∃ n, v = .str n ∧ names = [n]) ∨ v = .seq (names.map .str) ∨ v = .pairs (names.map .str)

/-- The entry gives the rule. -/
structure GivesRule (e : Entry) (rule : String × List String) : Prop where
  /-- The identifier is the text of the key. -/
  id_eq : rule.1 = e.2.1.text
  /-- No number in the key is too long to be written. -/
  written : e.2.1.hasLongNumber = false
  /-- The value stands for the names. -/
  names : Names e.2.2 rule.2
  /-- Each name is accepted. -/
  accepted : ∀ n ∈ rule.2, IsAccepted n

/-- A part of the entry that a message shows has a number too long to be written: the key, or an item
of the list. -/
def HasLongPart (e : Entry) : Prop :=
  e.2.1.hasLongNumber = true ∨
    ∃ items v, (e.2.2 = .seq items ∨ e.2.2 = .pairs items) ∧ v ∈ items ∧ v.hasLongNumber = true

namespace OverrideError

/-- The error says of the text, or of the table in it, what is wrong; it is not that a value can not be
handled. -/
def IsRefusal : OverrideError → Prop
  | yaml (.broken _) => False
  | _ => True

end OverrideError

/-- The check whether a value can be written. -/
theorem checkShown_cases (v : Value) :
    (v.hasLongNumber = false ∧ checkShown v = .ok ()) ∨
      (v.hasLongNumber = true ∧ checkShown v = .error (.yaml (.broken .longNumber))) := by
  have hone : Value.anyLongNumber [v] = v.hasLongNumber := by
    simp [Value.anyLongNumber]
  unfold checkShown Value.checkShown
  rw [hone]
  cases v.hasLongNumber with
  | false => exact Or.inl ⟨rfl, rfl⟩
  | true => exact Or.inr ⟨rfl, rfl⟩

/-- An item gives a name when it is a text that is accepted. -/
theorem nameOf_eq_ok_iff {rule : String} {line : Option Nat} {v : Value} {n : String} :
    nameOf rule line v = .ok n ↔ v = .str n ∧ IsAccepted n := by
  cases v with
  | str s =>
    rw [nameOf, Value.str.injEq]
    by_cases hname : isElementName s.toList = true
    · rw [if_pos hname, Except.ok.injEq]
      exact ⟨fun heq => ⟨heq, heq ▸ isElementName_iff.mp hname⟩, fun h => h.1⟩
    · rw [if_neg hname]
      refine iff_of_false (by simp) fun h => hname ?_
      rw [h.1]
      exact isElementName_iff.mpr h.2
  | _ =>
    refine iff_of_false (fun h => ?_) (by simp)
    obtain ⟨_, -, h⟩ := bind_eq_ok.mp h
    exact absurd h (by simp)

/-- An item that gives no name is refused, unless it can not be written. -/
theorem isRefusal_of_nameOf {rule : String} {line : Option Nat} {v : Value} {e : OverrideError}
    (h : nameOf rule line v = .error e) :
    e.IsRefusal ∨ e = .yaml (.broken .longNumber) ∧ v.hasLongNumber = true := by
  cases v with
  | str s =>
    rw [nameOf] at h
    split at h
    · exact absurd h (by simp)
    · obtain rfl := Except.error.inj h
      exact Or.inl trivial
  | _ =>
    -- What is no text has to be written in the message, before it is refused.
    rw [nameOf] at h
    · rcases bind_eq_error.mp h with hcheck | ⟨_, -, h⟩
      · rcases checkShown_cases _ with ⟨-, hok⟩ | ⟨hlong, herror⟩
        · exact absurd (hok.symm.trans hcheck) (by simp)
        · exact Or.inr ⟨(Except.error.inj (herror.symm.trans hcheck)).symm, hlong⟩
      · obtain rfl := Except.error.inj h
        exact Or.inl trivial
    · simp

/-- Items give the names that they are. -/
theorem mapM_nameOf_eq_ok_iff {rule : String} {line : Option Nat} {items : List Value}
    {names : List String} :
    items.mapM (nameOf rule line) = .ok names ↔
      items = names.map .str ∧ ∀ n ∈ names, IsAccepted n := by
  simp only [mapM_eq_ok_iff, nameOf_eq_ok_iff]
  constructor
  · intro h
    induction h with
    | nil => simp
    | cons hname _ ih =>
      obtain ⟨rfl, haccepted⟩ := hname
      obtain ⟨rfl, hothers⟩ := ih
      exact ⟨rfl, List.forall_mem_cons.mpr ⟨haccepted, hothers⟩⟩
  · rintro ⟨rfl, haccepted⟩
    rw [List.forall₂_map_left_iff, List.forall₂_same]
    exact fun n hn => ⟨rfl, haccepted n hn⟩

/-- A value gives the names that it is, if all are accepted. -/
theorem namesOf_eq_ok_iff {rule : String} {line : Option Nat} {v : Value} {names : List String} :
    namesOf rule line v = .ok names ↔ Names v names ∧ ∀ n ∈ names, IsAccepted n := by
  cases v with
  | str s =>
    rw [namesOf, map_eq_ok]
    constructor
    · rintro ⟨n, hn, rfl⟩
      obtain ⟨heq, haccepted⟩ := nameOf_eq_ok_iff.mp hn
      exact ⟨Or.inl ⟨n, heq, rfl⟩, List.forall_mem_singleton.mpr haccepted⟩
    · rintro ⟨⟨n, heq, rfl⟩ | h | h, haccepted⟩
      · exact ⟨n, nameOf_eq_ok_iff.mpr ⟨heq, haccepted n (List.mem_singleton_self n)⟩, rfl⟩
      · exact absurd h (by simp)
      · exact absurd h (by simp)
  | seq items | pairs items =>
    rw [namesOf, mapM_nameOf_eq_ok_iff]
    simp [Names]
  | _ => exact iff_of_false (by simp [namesOf]) (by simp [Names])

/-! ## Mappings -/

/-- An entry gives a rule when its key can be written and its value is names. -/
theorem ruleOf_eq_ok_iff {e : Entry} {rule : String × List String} :
    ruleOf e = .ok rule ↔ GivesRule e rule := by
  obtain ⟨line, key, value⟩ := e
  obtain ⟨id, names⟩ := rule
  constructor
  · intro h
    obtain ⟨_, hcheck, h⟩ := bind_eq_ok.mp h
    obtain ⟨names', hnames, h⟩ := bind_eq_ok.mp h
    obtain ⟨rfl, rfl⟩ := Prod.mk.inj (Except.ok.inj h)
    obtain ⟨hgives, haccepted⟩ := namesOf_eq_ok_iff.mp hnames
    rcases checkShown_cases key with ⟨hwritten, -⟩ | ⟨-, herror⟩
    · exact ⟨rfl, hwritten, hgives, haccepted⟩
    · exact absurd (herror.symm.trans hcheck) (by simp)
  · rintro ⟨rfl, hwritten, hgives, haccepted⟩
    rcases checkShown_cases key with ⟨-, hok⟩ | ⟨hlong, -⟩
    · exact bind_eq_ok.mpr ⟨(), hok, bind_eq_ok.mpr
        ⟨names, namesOf_eq_ok_iff.mpr ⟨hgives, haccepted⟩, rfl⟩⟩
    · exact absurd (hlong.symm.trans hwritten) (by decide)

/-- An entry that gives no rule is refused, unless a part of it can not be written. -/
theorem isRefusal_of_ruleOf {entry : Entry} {e : OverrideError} (h : ruleOf entry = .error e) :
    e.IsRefusal ∨ e = .yaml (.broken .longNumber) ∧ HasLongPart entry := by
  obtain ⟨line, key, value⟩ := entry
  -- The key is written first, and then each item that is no name.
  rcases bind_eq_error.mp h with hcheck | ⟨_, -, h⟩
  · rcases checkShown_cases key with ⟨-, hok⟩ | ⟨hlong, herror⟩
    · exact absurd (hok.symm.trans hcheck) (by simp)
    · exact Or.inr ⟨(Except.error.inj (herror.symm.trans hcheck)).symm, Or.inl hlong⟩
  rcases bind_eq_error.mp h with hnames | ⟨_, -, h⟩
  · cases value with
    | str s =>
      rw [namesOf, map_eq_error] at hnames
      rcases isRefusal_of_nameOf hnames with hrefusal | ⟨-, hlong⟩
      · exact Or.inl hrefusal
      · exact absurd hlong (by simp [Value.hasLongNumber])
    | seq items | pairs items =>
      obtain ⟨before, v, after, hitems, -, hv⟩ := mapM_eq_error.mp hnames
      refine (isRefusal_of_nameOf hv).imp id fun ⟨hbroken, hlong⟩ =>
        ⟨hbroken, Or.inr ⟨items, v, by simp, ?_, hlong⟩⟩
      simp [hitems]
    | _ =>
      obtain rfl := Except.error.inj hnames
      exact Or.inl trivial
  · exact absurd h (by simp [pure, Except.pure])

/-- A value gives rules when it is a mapping each entry of which gives one. -/
theorem rulesOf_eq_ok_iff {v : Value} {rules : List (String × List String)} :
    rulesOf v = .ok rules ↔
      ∃ entries, (v = .map entries ∨ v = .ordered entries) ∧ List.Forall₂ GivesRule entries rules := by
  cases v with
  | map entries | ordered entries =>
    rw [rulesOf, mapM_eq_ok_iff]
    simp [ruleOf_eq_ok_iff]
  | _ => exact iff_of_false (by simp [rulesOf]) (by simp)

/-- A value that gives no rules is refused, unless a part of it can not be written. -/
theorem isRefusal_of_rulesOf {v : Value} {e : OverrideError} (h : rulesOf v = .error e) :
    e.IsRefusal ∨ e = .yaml (.broken .longNumber) ∧
      ∃ entries, (v = .map entries ∨ v = .ordered entries) ∧ ∃ entry ∈ entries, HasLongPart entry := by
  cases v with
  | map entries | ordered entries =>
    obtain ⟨before, entry, after, hentries, -, hentry⟩ := mapM_eq_error.mp h
    refine (isRefusal_of_ruleOf hentry).imp id fun ⟨hbroken, hlong⟩ =>
      ⟨hbroken, entries, by simp, entry, ?_, hlong⟩
    simp [hentries]
  | _ =>
    obtain rfl := Except.error.inj h
    exact Or.inl trivial

/-! ## Texts -/

/-- The names of all rules that a text gives are accepted. -/
theorem isAccepted_of_rulesOfYaml {s : List Char} {rules : List (String × List String)}
    (h : rulesOfYaml s = .ok rules) : ∀ rule ∈ rules, ∀ n ∈ rule.2, IsAccepted n := by
  unfold rulesOfYaml at h
  split at h
  · exact absurd h (by simp)
  split at h
  · exact absurd h (by simp)
  split at h
  · exact absurd h (by simp)
  · obtain rfl := Except.ok.inj h
    simp
  · obtain ⟨entries, -, hrules⟩ := rulesOf_eq_ok_iff.mp h
    clear h
    induction hrules with
    | nil => simp
    | cons hrule _ ih => exact List.forall_mem_cons.mpr ⟨hrule.accepted, ih⟩

/-- A value gives exactly the rules of its entries, and otherwise is refused unless a part of it can not
be written. A text either is refused, over any table for the same reason, or gives rules whose names
are accepted; over any table, what is found for the identifier of a rule are then the names that the text
gives it last, or else those of the table, but nothing is found for the empty identifier. -/
theorem overrideBy_gives (v : Value) (s : List Char) :
    (∀ rules, rulesOf v = .ok rules ↔
      ∃ entries, (v = .map entries ∨ v = .ordered entries) ∧
        List.Forall₂ GivesRule entries rules) ∧
    (∀ e, rulesOf v = .error e →
      e.IsRefusal ∨ e = .yaml (.broken .longNumber) ∧
        ∃ entries, (v = .map entries ∨ v = .ordered entries) ∧
          ∃ entry ∈ entries, HasLongPart entry) ∧
    ((∃ e, rulesOfYaml s = .error e ∧ ∀ t : RuleTable, t.overrideBy s = .error e) ∨
      ∃ rules, rulesOfYaml s = .ok rules ∧ (∀ rule ∈ rules, ∀ n ∈ rule.2, IsAccepted n) ∧
        ∀ t : RuleTable, ∃ t', t.overrideBy s = .ok t' ∧ t'.targets none = [] ∧
          ∀ id, t'.targets (some id) =
            if id = "" then [] else (rules.reverse.lookup id).getD (t.targets (some id))) := by
  refine ⟨fun rules => rulesOf_eq_ok_iff, fun e => isRefusal_of_rulesOf, ?_⟩
  cases hrules : rulesOfYaml s with
  | error e => exact Or.inl ⟨e, rfl, fun t => by rw [overrideBy, hrules]; rfl⟩
  | ok rules =>
    refine Or.inr ⟨rules, rfl, isAccepted_of_rulesOfYaml hrules, fun t => ?_⟩
    refine ⟨t.merge (ofList rules).rules, by rw [overrideBy, hrules]; rfl, rfl, fun id => ?_⟩
    exact targets_merge_ofList t rules id

/-- A line feed that ends a quoted text is accepted behind the name. -/
example : (rulesOf (.map [(some 1, .str "BR-01", .str "A\n")])).toOption =
    some [("BR-01", ["A\n"])] := by decide +kernel

end StylesheetTrace.RuleTable
