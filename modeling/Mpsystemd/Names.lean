import Mathlib
import Mpsystemd.JournalFields
import Mpsystemd.Payload

/-! The grammar of a name, and what the two validators make of it: they look at
the upper cased text. -/

namespace Mpsystemd

open Journal (checkFieldName fieldNameMax)

namespace CodePoint

def Is (p : Char → Bool) : CodePoint → Bool
  | scalar c => p c
  | surrogate _ => false

/-- An ASCII letter upper cased, anything else as it is. -/
def capital : CodePoint → CodePoint
  | scalar c => scalar c.toUpper
  | surrogate k => surrogate k

end CodePoint

def isNameChar (letter : Char → Bool) (c : Char) : Bool := letter c || c.isDigit || c == '_'

/-- A letter, then letters, digits and underscores. -/
def Named (letter : Char → Bool) : Str → Prop
  | [] => False
  | first :: rest => first.Is letter ∧ ∀ char ∈ rest, char.Is (isNameChar letter)

instance (letter : Char → Bool) : DecidablePred (Named letter) := fun name => by
  cases name with
  | nil => exact isFalse id
  | cons first rest => exact inferInstanceAs (Decidable (_ ∧ _))

/-- `[A-Za-z][A-Za-z0-9_]{0,63}`. -/
def FieldName (name : Str) : Prop := Named Char.isAlpha name ∧ name.length ≤ fieldNameMax

/-- Like MicroPython's, `upper` maps the ASCII letters only. -/
def Runtime.UppersAscii (rt : Runtime) : Prop := ∀ char, rt.upperChar char = [char.capital]

/-- The letters that are not ASCII and whose upper case is. -/
def asciiCapitals : List (Char × String) :=
  [('ß', "SS"), ('ı', "I"), ('ſ', "S"), ('ﬀ', "FF"), ('ﬁ', "FI"), ('ﬂ', "FL"), ('ﬃ', "FFI"), ('ﬄ', "FFL"),
    ('ﬅ', "ST"), ('ﬆ', "ST")]

/-- CPython's `upper`, where the result is ASCII. -/
def Runtime.unicodeUpper : Runtime where
  micropython := false
  hasMemfd := true
  parseInt := Runtime.unixPort.parseInt
  upperChar
    | .scalar c => ((asciiCapitals.lookup c).map str).getD [.scalar c.toUpper]
    | .surrogate k => [.surrogate k]
  upperChar_ascii c hc := by
    have hother : ∀ pair ∈ asciiCapitals, 128 ≤ pair.1.toNat := by decide
    have hnone : asciiCapitals.lookup c = none := by
      refine Dict.lookup_eq_none fun pair hpair heq => ?_
      have hpair := hother pair hpair
      rw [heq] at hpair
      omega
    simp [hnone]

def PyErr.IsJournalError : PyErr → Prop
  | journalError _ _ => True
  | _ => False

/-! The character sets. -/

theorem ascii_induction {P : Char → Prop} (h : ∀ n < 128, P (Char.ofNat n)) {c : Char} (hc : c.toNat < 128) :
    P c := by
  rw [← Char.ofNat_toNat c]
  exact h c.toNat hc

theorem toNat_lt_of_isNameChar {c : Char} (h : isNameChar Char.isAlpha c) : c.toNat < 128 := by
  simp only [isNameChar, Char.isAlpha, Char.isUpper, Char.isLower, Char.isDigit, Bool.or_eq_true,
    Bool.and_eq_true, decide_eq_true_eq, beq_iff_eq, UInt32.le_iff_toNat_le, ge_iff_le] at h
  rcases h with (h | h) | rfl
  · have : c.toNat = c.val.toNat := rfl
    have : 'Z'.val.toNat = 90 := rfl
    have : 'z'.val.toNat = 122 := rfl
    omega
  · have : c.toNat = c.val.toNat := rfl
    have : '9'.val.toNat = 57 := rfl
    omega
  · decide

theorem isNameChar_of_letter {letter : Char → Bool} {c : Char} (h : letter c) : isNameChar letter c := by
  simp only [isNameChar, h, Bool.true_or]

theorem isAlpha_of_isUpper {c : Char} (h : c.isUpper) : c.isAlpha := by
  simp only [Char.isAlpha, h, Bool.true_or]

theorem isNameChar_isAlpha {c : Char} (h : isNameChar Char.isUpper c) : isNameChar Char.isAlpha c := by
  simp only [isNameChar, Bool.or_eq_true] at h ⊢
  exact h.imp_left (Or.imp_left isAlpha_of_isUpper)

theorem mem_iff_is {chars : Str} {p : Char → Bool} (hsound : ∀ char ∈ chars, char.Is p)
    (hcomplete : ∀ n < 128, p (Char.ofNat n) → .scalar (Char.ofNat n) ∈ chars)
    (hascii : ∀ c, p c → c.toNat < 128) (char : CodePoint) : char ∈ chars ↔ char.Is p := by
  refine ⟨hsound char, fun h => ?_⟩
  cases char with
  | scalar c => exact @ascii_induction (fun c => p c → .scalar c ∈ chars) hcomplete c (hascii c h) h
  | surrogate k => cases h

theorem mem_nameFirst (char : CodePoint) : char ∈ nameFirst ↔ char.Is Char.isUpper :=
  mem_iff_is (by decide) (by decide)
    (fun _ h => toNat_lt_of_isNameChar (isNameChar_of_letter (isAlpha_of_isUpper h))) char

theorem mem_nameRest (char : CodePoint) : char ∈ nameRest ↔ char.Is (isNameChar Char.isUpper) :=
  mem_iff_is (by decide) (by decide) (fun _ h => toNat_lt_of_isNameChar (isNameChar_isAlpha h)) char

theorem mem_nameChars (char : CodePoint) : char ∈ Journal.nameChars ↔ char.Is (isNameChar Char.isUpper) :=
  mem_iff_is (by decide) (by decide) (fun _ h => toNat_lt_of_isNameChar (isNameChar_isAlpha h)) char

theorem Named.forall {letter : Char → Bool} {name : Str} (h : Named letter name) :
    ∀ char ∈ name, char.Is (isNameChar letter) := by
  cases name with
  | nil => exact fun _ hchar => absurd hchar List.not_mem_nil
  | cons first rest =>
    refine List.forall_mem_cons.mpr ⟨?_, h.2⟩
    cases first with
    | scalar c => exact isNameChar_of_letter h.1
    | surrogate k => exact absurd h.1 Bool.false_ne_true

theorem Named.ascii {name : Str} (h : Named Char.isAlpha name) : Ascii name := by
  intro char hchar
  have his := h.forall char hchar
  cases char with
  | scalar c => exact toNat_lt_of_isNameChar his
  | surrogate k => cases his

/-! Upper casing. -/

theorem isNameChar_toUpper (c : Char) : isNameChar Char.isUpper c.toUpper = isNameChar Char.isAlpha c := by
  by_cases hlower : c.isLower
  · have hc : c.toNat < 128 := toNat_lt_of_isNameChar (isNameChar_of_letter (by simp [Char.isAlpha, hlower]))
    exact @ascii_induction (fun c => isNameChar Char.isUpper c.toUpper = isNameChar Char.isAlpha c)
      (by decide) c hc
  · have hupper : c.toUpper = c := Char.toUpper_eq_of_not_isLower hlower
    simp only [isNameChar, hupper, Char.isAlpha, Bool.not_eq_true] at hlower ⊢
    rw [hlower, Bool.or_false]

theorem named_capital (name : Str) :
    Named Char.isUpper (name.map CodePoint.capital) ↔ Named Char.isAlpha name := by
  have hrest : ∀ char : CodePoint,
      char.capital.Is (isNameChar Char.isUpper) = char.Is (isNameChar Char.isAlpha) := by
    intro char
    cases char with
    | scalar c => exact isNameChar_toUpper c
    | surrogate k => rfl
  cases name with
  | nil => exact Iff.rfl
  | cons first rest =>
    simp only [List.map_cons, Named, List.forall_mem_map, hrest]
    refine and_congr_left fun _ => ?_
    cases first with
    | scalar c => exact Bool.eq_iff_iff.mp (Char.isUpper_toUpper_eq_isAlpha c)
    | surrogate k => exact Iff.rfl

theorem upper_of_ascii (rt : Runtime) {name : Str} (h : Ascii name ∨ rt.UppersAscii) :
    rt.upper name = name.map CodePoint.capital := by
  have hchar : ∀ char ∈ name, rt.upperChar char = [char.capital] := by
    intro char hmem
    rcases h with hascii | hupper
    · have hord := hascii char hmem
      cases char with
      | scalar c => exact rt.upperChar_ascii c hord
      | surrogate k =>
        simp only [CodePoint.ord] at hord
        omega
    · exact hupper char
  rw [Runtime.upper, List.map_eq_flatMap]
  exact List.flatMap_congr hchar

theorem upper_of_named (rt : Runtime) {name : Str} (h : Named Char.isUpper name) : rt.upper name = name := by
  have hcapital : ∀ char ∈ name, char.ord < 128 ∧ char.capital = char := by
    intro char hchar
    have his := h.forall char hchar
    cases char with
    | scalar c =>
      have hc : c.toNat < 128 := toNat_lt_of_isNameChar (isNameChar_isAlpha his)
      refine ⟨hc, congrArg CodePoint.scalar ?_⟩
      exact @ascii_induction (fun c => isNameChar Char.isUpper c → c.toUpper = c) (by decide) c hc his
    | surrogate k => cases his
  rw [upper_of_ascii rt (.inl fun char hchar => (hcapital char hchar).1)]
  calc name.map CodePoint.capital = name.map id :=
        List.map_congr_left fun char hchar => (hcapital char hchar).2
    _ = name := List.map_id _

/-! The checks. -/

theorem checkName_eq_ok_iff {rt : Runtime} {name upper : Str} :
    checkName rt name = .ok upper ↔ upper = rt.upper name ∧ Named Char.isUpper upper := by
  rw [checkName]
  cases hupper : rt.upper name with
  | nil =>
    refine iff_of_false (by simp) ?_
    rintro ⟨rfl, hnamed⟩
    exact hnamed
  | cons first rest =>
    have hchars : (¬ ∃ char ∈ first :: rest, char ∉ nameRest) ↔
        ∀ char ∈ first :: rest, char.Is (isNameChar Char.isUpper) := by
      push Not
      exact forall_congr' fun char => imp_congr_right fun _ => mem_nameRest char
    by_cases hfirst : first ∈ nameFirst
    · simp only [not_not.mpr hfirst, if_false]
      by_cases hrest : ∃ char ∈ first :: rest, char ∉ nameRest
      · rw [if_pos hrest]
        refine iff_of_false (by simp) ?_
        rintro ⟨rfl, hnamed⟩
        exact hchars.mpr hnamed.forall hrest
      · rw [if_neg hrest, Except.ok.injEq]
        have hnamed : Named Char.isUpper (first :: rest) :=
          ⟨(mem_nameFirst first).mp hfirst, (List.forall_mem_cons.mp (hchars.mp hrest)).2⟩
        exact ⟨fun h => ⟨h.symm, h ▸ hnamed⟩, fun h => h.1.symm⟩
    · simp only [hfirst, not_false_eq_true, if_true]
      refine iff_of_false (by simp) ?_
      rintro ⟨rfl, hnamed⟩
      exact hfirst ((mem_nameFirst first).mpr hnamed.1)

theorem checkName_of_named (rt : Runtime) {name : Str} (h : Named Char.isUpper name) :
    checkName rt name = .ok name :=
  checkName_eq_ok_iff.mpr ⟨(upper_of_named rt h).symm, h⟩

theorem isUpper_iff_nameChars (first : CodePoint) : first.Is Char.isUpper ↔
    first ∈ Journal.nameChars ∧ first ≠ .scalar '_' ∧ first ∉ Journal.digits := by
  constructor
  · intro h
    have hletters : ∀ char ∈ nameFirst, char ∈ Journal.nameChars ∧ char ≠ .scalar '_' ∧ char ∉ Journal.digits := by
      decide
    exact hletters first ((mem_nameFirst first).mpr h)
  · rintro ⟨hmem, hunderscore, hdigit⟩
    have hothers : ∀ char ∈ Journal.nameChars,
        char = .scalar '_' ∨ char ∈ Journal.digits ∨ char.Is Char.isUpper := by decide
    exact ((hothers first hmem).resolve_left hunderscore).resolve_left hdigit

theorem named_iff_nameChars (first : CodePoint) (rest : Str) : Named Char.isUpper (first :: rest) ↔
    first ≠ .scalar '_' ∧ first ∉ Journal.digits ∧ ∀ char ∈ first :: rest, char ∈ Journal.nameChars := by
  have hrest : (∀ char ∈ rest, char.Is (isNameChar Char.isUpper)) ↔ ∀ char ∈ rest, char ∈ Journal.nameChars :=
    forall_congr' fun char => imp_congr_right fun _ => (mem_nameChars char).symm
  rw [Named, isUpper_iff_nameChars, hrest, List.forall_mem_cons]
  tauto

theorem checkFieldName_eq_ok_iff {rt : Runtime} {name upper : Str} :
    checkFieldName rt name = .ok upper ↔
      upper = rt.upper name ∧ Named Char.isUpper upper ∧ upper.length ≤ fieldNameMax := by
  have hok : checkFieldName rt name = .ok upper → upper = rt.upper name := fun h => (Journal.checkFieldName_ok h).1
  rw [checkFieldName] at hok ⊢
  cases hupper : rt.upper name with
  | nil =>
    refine iff_of_false (by simp) ?_
    rintro ⟨rfl, hnamed, -⟩
    exact hnamed
  | cons first rest =>
    simp only [hupper] at hok ⊢
    constructor
    · intro h
      obtain rfl := hok h
      rw [named_iff_nameChars]
      split at h
      · cases h
      · next hlength =>
        split at h
        · cases h
        · next hunderscore =>
          split at h
          · cases h
          · next hdigit =>
            split at h
            · cases h
            · next hchars =>
              push Not at hchars
              exact ⟨rfl, ⟨hunderscore, hdigit, hchars⟩, not_lt.mp hlength⟩
    · rintro ⟨rfl, hnamed, hlength⟩
      obtain ⟨hunderscore, hdigit, hchars⟩ := (named_iff_nameChars first rest).mp hnamed
      have hvalid : ¬ ∃ char ∈ first :: rest, char ∉ Journal.nameChars := by
        push Not
        exact hchars
      rw [if_neg (not_lt.mpr hlength), if_neg hunderscore, if_neg hdigit, if_neg hvalid]

theorem checkFieldName_error {rt : Runtime} {name : Str} {e : PyErr}
    (h : checkFieldName rt name = .error e) : e.IsJournalError := by
  rw [checkFieldName] at h
  cases hupper : rt.upper name with
  | nil =>
    simp only [hupper, Except.error.injEq] at h
    simp [← h, PyErr.IsJournalError]
  | cons first rest =>
    simp only [hupper] at h
    split at h
    · cases h
      trivial
    · split at h
      · cases h
        trivial
      · split at h
        · cases h
          trivial
        · split at h
          · cases h
            trivial
          · cases h

/-- The check accepts what the grammar has, with each ASCII letter upper cased,
and refuses anything else. -/
structure Validates (check : Str → Except PyErr Str) (grammar : Str → Prop) (Refusal : PyErr → Prop)
    (name : Str) : Prop where
  accepts : grammar name → check name = .ok (name.map CodePoint.capital)
  refuses : ¬ grammar name → ∃ e, check name = .error e ∧ Refusal e

theorem validates_of_iff {check : Str → Except PyErr Str} {grammar : Str → Prop} {Refusal : PyErr → Prop}
    {name : Str} (hok : ∀ upper, check name = .ok upper ↔ upper = name.map CodePoint.capital ∧ grammar name)
    (herror : ∀ e, check name = .error e → Refusal e) : Validates check grammar Refusal name where
  accepts hgrammar := (hok _).mpr ⟨rfl, hgrammar⟩
  refuses hgrammar := by
    rcases Fallible.isOk_or_isError (check name) with ⟨upper, h⟩ | ⟨e, h⟩
    · exact absurd ((hok upper).mp h).2 hgrammar
    · exact ⟨e, h, herror e h⟩

theorem validates_checkName {rt : Runtime} {name : Str} (h : Ascii name ∨ rt.UppersAscii) :
    Validates (checkName rt) (Named Char.isAlpha) PyErr.IsValueError name := by
  refine validates_of_iff (fun upper => ?_) fun _ => checkName_error
  rw [checkName_eq_ok_iff, upper_of_ascii rt h]
  refine and_congr_right fun heq => ?_
  rw [heq, named_capital]

theorem validates_checkFieldName {rt : Runtime} {name : Str} (h : Ascii name ∨ rt.UppersAscii) :
    Validates (checkFieldName rt) FieldName PyErr.IsJournalError name := by
  refine validates_of_iff (fun upper => ?_) fun _ => checkFieldName_error
  rw [checkFieldName_eq_ok_iff, upper_of_ascii rt h]
  refine and_congr_right fun heq => ?_
  rw [heq, named_capital, List.length_map, FieldName]

/-- The checks accept a name when its upper case is in capitals, whichever
letters it is spelled with. Of the ASCII names, and of all of them where `upper`
maps no others, these are the names of the grammar. -/
theorem names_checked (rt : Runtime) (name : Str) :
    (∀ upper, checkName rt name = .ok upper ↔ upper = rt.upper name ∧ Named Char.isUpper upper) ∧
    (∀ upper, checkFieldName rt name = .ok upper ↔
      upper = rt.upper name ∧ Named Char.isUpper upper ∧ upper.length ≤ fieldNameMax) ∧
    (∀ e, checkName rt name = .error e → e.IsValueError) ∧
    (∀ e, checkFieldName rt name = .error e → e.IsJournalError) ∧
    (Ascii name ∨ rt.UppersAscii →
      Validates (checkName rt) (Named Char.isAlpha) PyErr.IsValueError name ∧
      Validates (checkFieldName rt) FieldName PyErr.IsJournalError name) ∧
    (Ascii name → ∀ rt', checkName rt' name = checkName rt name ∧
      checkFieldName rt' name = checkFieldName rt name) ∧
    (Ascii name → ∀ other, Ascii other → rt.upper other = rt.upper name →
      other.map CodePoint.capital = name.map CodePoint.capital) := by
  refine ⟨fun _ => checkName_eq_ok_iff, fun _ => checkFieldName_eq_ok_iff, fun _ => checkName_error,
    fun _ => checkFieldName_error, fun h => ⟨validates_checkName h, validates_checkFieldName h⟩, ?_, ?_⟩
  · intro hascii rt'
    have hupper : rt'.upper name = rt.upper name := by
      rw [upper_of_ascii rt' (.inl hascii), upper_of_ascii rt (.inl hascii)]
    exact ⟨by rw [checkName, checkName, hupper], by rw [checkFieldName, checkFieldName, hupper]⟩
  · intro hascii other hother hupper
    rwa [upper_of_ascii rt (.inl hascii), upper_of_ascii rt (.inl hother)] at hupper

theorem names_checked_ascii :
    Validates (checkName .unicodeUpper) (Named Char.isAlpha) PyErr.IsValueError (str "ab_1") ∧
      Validates (checkFieldName .unicodeUpper) FieldName PyErr.IsJournalError (str "ab_1") :=
  (names_checked .unicodeUpper (str "ab_1")).2.2.2.2.1 (.inl (by decide))

/-- On CPython a dotless i is a name, on the MicroPython unix port it is not. -/
theorem dotless_name_accepted :
    checkName .unicodeUpper (str "ı") = .ok (str "I") ∧ checkFieldName .unicodeUpper (str "ı") = .ok (str "I") ∧
      checkName .unixPort (str "ı") =
        .error (.valueError "state field name must start with a letter: %r" [.text (str "ı")]) ∧
      ¬ Validates (checkName .unicodeUpper) (Named Char.isAlpha) PyErr.IsValueError (str "ı") ∧
      ¬ Validates (checkFieldName .unicodeUpper) FieldName PyErr.IsJournalError (str "ı") := by
  have hname : checkName .unicodeUpper (str "ı") = .ok (str "I") := by decide
  have hfield : checkFieldName .unicodeUpper (str "ı") = .ok (str "I") := by decide
  have hgrammar : ¬ Named Char.isAlpha (str "ı") := by decide
  refine ⟨hname, hfield, by decide, fun h => ?_, fun h => ?_⟩
  · obtain ⟨e, he, -⟩ := h.refuses hgrammar
    rw [hname] at he
    cases he
  · obtain ⟨e, he, -⟩ := h.refuses fun hfield => hgrammar hfield.1
    rw [hfield] at he
    cases he

end Mpsystemd
