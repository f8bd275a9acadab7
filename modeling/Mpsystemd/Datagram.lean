import Mpsystemd.Payload

/-! The parser of the testing module, and what it makes of a built payload. -/

namespace Mpsystemd

structure Datagram where
  data : Bytes
  fds : List Int

namespace Datagram

def text (datagram : Datagram) : Except PyErr Str := decodeUtf8 datagram.data

def lines (datagram : Datagram) : Except PyErr (List Str) := do
  let text ← datagram.text
  return (text.splitOn newline).filter (· ≠ [])

/-- A line split at its first `=`, or a bare name with an empty value. -/
def parseLine (line : Str) : Str × Str :=
  match Separator.cut equals line with
  | some (name, value) => (name, value)
  | none => (line, [])

def fields (datagram : Datagram) : Except PyErr (Dict Str Str) := do
  let lines ← datagram.lines
  return Dict.empty.setAll (lines.map parseLine)

end Datagram

/-! The payload line by line. -/

def formatted (rt : Runtime) : Str × Value → Except PyErr (Str × Str)
  | (name, value) => do return (rt.upper name, ← formatValue value)

def assign : Str × Str → Str
  | (name, value) => name ++ equals :: value

theorem nameRest_plain : ∀ c ∈ nameRest, c ≠ newline ∧ c ≠ equals ∧ c.utf8.isSome := by decide

theorem assignment_ok {rt : Runtime} {entry : Str × Value} {line : Str}
    (h : assignment rt entry = .ok line) :
    ∃ pair, formatted rt entry = .ok pair ∧ line = assign pair ∧ equals ∉ pair.1 ∧
      newline ∉ line := by
  obtain ⟨upper, hn, h⟩ := Fallible.bind_eq_ok.mp h
  obtain ⟨value, hv, h⟩ := Fallible.bind_eq_ok.mp h
  obtain ⟨hupper, _, hchars⟩ := checkName_ok hn
  split at h
  · simp at h
  · next hnl =>
    simp only [Fallible.pure_eq_ok, Except.ok.injEq] at h
    refine ⟨(upper, value), by simp [formatted, hv, hupper], h.symm, ?_, ?_⟩
    · exact fun hm => (nameRest_plain _ (hchars _ hm)).2.1 rfl
    · rw [← h, List.mem_append, List.mem_cons]
      rintro (hm | hm | hm)
      · exact (nameRest_plain _ (hchars _ hm)).1 rfl
      · exact absurd hm (by decide)
      · exact hnl hm

theorem assignments_ok {rt : Runtime} {entries : List (Str × Value)} {lines : List Str}
    (h : entries.mapM (assignment rt) = .ok lines) :
    ∃ pairs, entries.mapM (formatted rt) = .ok pairs ∧ lines = pairs.map assign ∧
      (∀ pair ∈ pairs, equals ∉ pair.1) ∧ ∀ line ∈ lines, newline ∉ line := by
  have hf := Fallible.mapM_eq_ok.mp h
  clear h
  induction hf with
  | nil => exact ⟨[], rfl, rfl, by simp, by simp⟩
  | @cons entry line entries lines hline _ ih =>
    obtain ⟨pair, hpair, rfl, hequals, hnl⟩ := assignment_ok hline
    obtain ⟨pairs, hpairs, rfl, hequalss, hnls⟩ := ih
    refine ⟨pair :: pairs, by simp [List.mapM_cons, hpair, hpairs], rfl, ?_, ?_⟩
    · exact List.forall_mem_cons.mpr ⟨hequals, hequalss⟩
    · exact List.forall_mem_cons.mpr ⟨hnl, hnls⟩

theorem assign_ne_nil (pair : Str × Str) : assign pair ≠ [] := by simp [assign]

theorem parseLine_assign {pair : Str × Str} (h : equals ∉ pair.1) :
    Datagram.parseLine (assign pair) = pair := by
  simp [Datagram.parseLine, assign, Separator.cut_append h]

theorem pieces_of_stripped (states : List Str) :
    ((states.map (Separator.strip newline)).filter (· ≠ [])).flatMap (Separator.pieces newline) =
      states.flatMap (Separator.pieces newline) := by
  induction states with
  | nil => rfl
  | cons state states ih =>
    by_cases hs : Separator.strip newline state = []
    · have hp := Separator.strip_eq_nil_iff.mp hs
      simp only [List.map_cons, hs, List.filter_cons, ne_eq, not_true_eq_false, decide_false,
        Bool.false_eq_true, if_false, ih, List.flatMap_cons, hp, List.nil_append]
    · simp only [List.map_cons, List.filter_cons, ne_eq, hs, not_false_eq_true, decide_true,
        if_true, List.flatMap_cons, Separator.pieces_strip, ih]

theorem pieces_of_assigned {pairs : List (Str × Str)}
    (h : ∀ line ∈ pairs.map assign, newline ∉ line) :
    (pairs.map assign).flatMap (Separator.pieces newline) = pairs.map assign := by
  induction pairs with
  | nil => rfl
  | cons pair pairs ih =>
    have hc := List.forall_mem_cons.mp h
    rw [List.map_cons, List.flatMap_cons, Separator.pieces_of_notMem hc.1 (assign_ne_nil pair),
      ih hc.2, List.singleton_append]

/-- The lines a receiver should see: the pieces of every raw state in order,
then `UPPER(name)=value` for each field by sorted name. -/
def expectedLines (rt : Runtime) (states : List StrOrBytes) (fields : Dict Str Value) :
    Except PyErr (List Str) := do
  let states ← states.mapM StrOrBytes.decode
  let pairs ← fields.sorted.mapM (formatted rt)
  return states.flatMap (Separator.pieces newline) ++ pairs.map assign

theorem lines_buildPayload {rt : Runtime} {states : List StrOrBytes} {fields : Dict Str Value}
    {data : Bytes} (h : buildPayload rt states fields = .ok data) (fds : List Int) :
    ∃ texts pairs, states.mapM StrOrBytes.decode = .ok texts ∧
      fields.sorted.mapM (formatted rt) = .ok pairs ∧ (∀ pair ∈ pairs, equals ∉ pair.1) ∧
      (Datagram.mk data fds).lines =
        .ok (texts.flatMap (Separator.pieces newline) ++ pairs.map assign) := by
  obtain ⟨lines, hlines, h⟩ := Fallible.bind_eq_ok.mp h
  obtain ⟨texts, htexts, hlines⟩ := Fallible.bind_eq_ok.mp hlines
  obtain ⟨assigned, hassigned, hlines⟩ := Fallible.bind_eq_ok.mp hlines
  obtain ⟨pairs, hpairs, rfl, hequals, hnl⟩ := assignments_ok hassigned
  simp only [Fallible.pure_eq_ok, Except.ok.injEq] at hlines
  refine ⟨texts, pairs, htexts, hpairs, hequals, ?_⟩
  split at h
  · simp at h
  · have hdecode := decodeUtf8_of_encodeUtf8 h
    have hsplit : Separator.pieces newline ([newline].intercalate lines ++ [newline]) =
        texts.flatMap (Separator.pieces newline) ++ pairs.map assign := by
      rw [Separator.pieces_concat, Separator.pieces_intercalate, ← hlines, List.flatMap_append,
        pieces_of_stripped, pieces_of_assigned hnl]
    simp only [Datagram.lines, Datagram.text, hdecode, Fallible.ok_bind, Fallible.pure_eq_ok,
      Except.ok.injEq]
    exact hsplit

theorem expectedLines_eq {rt : Runtime} {states : List StrOrBytes} {fields : Dict Str Value}
    {texts : List Str} {pairs : List (Str × Str)} (ht : states.mapM StrOrBytes.decode = .ok texts)
    (hp : fields.sorted.mapM (formatted rt) = .ok pairs) :
    expectedLines rt states fields =
      .ok (texts.flatMap (Separator.pieces newline) ++ pairs.map assign) := by
  simp [expectedLines, ht, hp]

/-! Which payloads are refused. -/

theorem assignment_isOk_iff {rt : Runtime} {entry : Str × Value} :
    (∃ line, assignment rt entry = .ok line) ↔
      (∃ upper, checkName rt entry.1 = .ok upper) ∧
        ∃ value, formatValue entry.2 = .ok value ∧ newline ∉ value := by
  constructor
  · rintro ⟨line, h⟩
    obtain ⟨upper, hn, h⟩ := Fallible.bind_eq_ok.mp h
    obtain ⟨value, hv, h⟩ := Fallible.bind_eq_ok.mp h
    refine ⟨⟨upper, hn⟩, value, hv, fun hm => ?_⟩
    simp [hm] at h
  · rintro ⟨⟨upper, hn⟩, value, hv, hm⟩
    exact ⟨upper ++ equals :: value, by simp [assignment, hn, hv, hm]⟩

theorem encodable_joined {lines : List Str} :
    Encodable ([newline].intercalate lines ++ [newline]) ↔ ∀ line ∈ lines, Encodable line := by
  simp only [encodable_iff]
  constructor
  · intro h line hl c hc
    exact h c (List.mem_append_left _ (Separator.mem_intercalate_of_mem hl hc))
  · intro h c hc
    rcases List.mem_append.mp hc with hc | hc
    · rcases Separator.mem_intercalate hc with rfl | ⟨line, hl, hc⟩
      · rfl
      · exact h line hl c hc
    · rw [List.mem_singleton.mp hc]
      rfl

theorem encodable_strip {text : Str} :
    Encodable (Separator.strip newline text) ↔ Encodable text := by
  simp only [encodable_iff]
  constructor
  · intro h c hc
    by_cases hn : c = newline
    · rw [hn]
      rfl
    · exact h c ((Separator.mem_strip_of_ne hn).mpr hc)
  · intro h c hc
    by_cases hn : c = newline
    · rw [hn]
      rfl
    · exact h c ((Separator.mem_strip_of_ne hn).mp hc)

theorem encodable_assignment {rt : Runtime} {entry : Str × Value} {line : Str}
    (h : assignment rt entry = .ok line) :
    Encodable line ↔ ∃ value, formatValue entry.2 = .ok value ∧ Encodable value := by
  obtain ⟨upper, hn, h⟩ := Fallible.bind_eq_ok.mp h
  obtain ⟨value, hv, h⟩ := Fallible.bind_eq_ok.mp h
  obtain ⟨_, _, hchars⟩ := checkName_ok hn
  split at h
  · simp at h
  · simp only [Fallible.pure_eq_ok, Except.ok.injEq] at h
    simp only [hv, Except.ok.injEq, exists_eq_left', ← h, encodable_iff, List.mem_append,
      List.mem_cons]
    constructor
    · exact fun hh c hc => hh c (.inr (.inr hc))
    · rintro hh c (hc | rfl | hc)
      · exact (nameRest_plain c (hchars c hc)).2.2
      · rfl
      · exact hh c hc

/-- What `build_payload` asks of its arguments. -/
structure Acceptable (rt : Runtime) (states : List StrOrBytes) (fields : Dict Str Value) : Prop where
  texts : ∀ state ∈ states, ∃ text, state.decode = .ok text ∧ Encodable text
  names : ∀ entry ∈ fields.entries, ∃ upper, checkName rt entry.1 = .ok upper
  values : ∀ entry ∈ fields.entries, ∃ value, formatValue entry.2 = .ok value ∧ Encodable value
  newlines : ∀ entry ∈ fields.entries, ∀ value, formatValue entry.2 = .ok value → newline ∉ value
  nonempty : fields.entries ≠ [] ∨ ∃ state ∈ states, ∃ text, state.decode = .ok text ∧
    Separator.pieces newline text ≠ []

theorem payloadLines_isOk_iff {rt : Runtime} {states : List StrOrBytes} {fields : Dict Str Value} :
    (∃ lines, payloadLines rt states fields = .ok lines) ↔
      (∀ state ∈ states, ∃ text, state.decode = .ok text) ∧
        ∀ entry ∈ fields.entries, ∃ line, assignment rt entry = .ok line := by
  rw [← Fallible.mapM_isOk_iff, ← forall_congr' fun entry => imp_congr_left Dict.mem_sorted,
    ← Fallible.mapM_isOk_iff]
  constructor
  · rintro ⟨lines, h⟩
    obtain ⟨texts, ht, h⟩ := Fallible.bind_eq_ok.mp h
    obtain ⟨assigned, ha, _⟩ := Fallible.bind_eq_ok.mp h
    exact ⟨⟨texts, ht⟩, assigned, ha⟩
  · rintro ⟨⟨texts, ht⟩, assigned, ha⟩
    exact ⟨_, by simp only [payloadLines, ht, ha, Fallible.ok_bind]; rfl⟩

theorem stripped_ne_nil {texts : List Str} :
    (texts.map (Separator.strip newline)).filter (· ≠ []) ≠ [] ↔
      ∃ text ∈ texts, Separator.pieces newline text ≠ [] := by
  rw [ne_eq, List.filter_eq_nil_iff, List.forall_mem_map]
  simp [Separator.strip_eq_nil_iff]

theorem payloadLines_ne_nil_iff {rt : Runtime} {states : List StrOrBytes} {fields : Dict Str Value}
    {lines : List Str} (h : payloadLines rt states fields = .ok lines) :
    lines ≠ [] ↔ fields.entries ≠ [] ∨ ∃ state ∈ states, ∃ text, state.decode = .ok text ∧
      Separator.pieces newline text ≠ [] := by
  obtain ⟨texts, ht, h⟩ := Fallible.bind_eq_ok.mp h
  obtain ⟨assigned, ha, h⟩ := Fallible.bind_eq_ok.mp h
  simp only [Fallible.pure_eq_ok, Except.ok.injEq] at h
  have hlen := (Fallible.mapM_eq_ok.mp ha).length_eq
  have hassigned : assigned ≠ [] ↔ fields.entries ≠ [] := by
    rw [not_iff_not, ← Dict.sorted_eq_nil, ← List.length_eq_zero_iff, ← List.length_eq_zero_iff,
      hlen]
  have htexts : (∃ text ∈ texts, Separator.pieces newline text ≠ []) ↔
      ∃ state ∈ states, ∃ text, state.decode = .ok text ∧ Separator.pieces newline text ≠ [] := by
    constructor
    · rintro ⟨text, hm, hp⟩
      obtain ⟨state, hs, hd⟩ := (Fallible.mem_of_mapM ht).mp hm
      exact ⟨state, hs, text, hd, hp⟩
    · rintro ⟨state, hs, text, hd, hp⟩
      exact ⟨text, (Fallible.mem_of_mapM ht).mpr ⟨state, hs, hd⟩, hp⟩
  rw [← h, ne_eq, List.append_eq_nil_iff, not_and_or]
  exact (or_congr (stripped_ne_nil.trans htexts) hassigned).trans or_comm

theorem payloadLines_encodable_iff {rt : Runtime} {states : List StrOrBytes} {fields : Dict Str Value}
    {lines : List Str} (h : payloadLines rt states fields = .ok lines) :
    (∀ line ∈ lines, Encodable line) ↔
      (∀ state ∈ states, ∃ text, state.decode = .ok text ∧ Encodable text) ∧
        ∀ entry ∈ fields.entries, ∃ value, formatValue entry.2 = .ok value ∧ Encodable value := by
  obtain ⟨texts, ht, h⟩ := Fallible.bind_eq_ok.mp h
  obtain ⟨assigned, ha, h⟩ := Fallible.bind_eq_ok.mp h
  simp only [Fallible.pure_eq_ok, Except.ok.injEq] at h
  rw [← h, List.forall_mem_append]
  refine and_congr ⟨fun hl state hs => ?_, fun hs line hl => ?_⟩ ⟨fun hl entry he => ?_, fun he line hl => ?_⟩
  · obtain ⟨text, hd⟩ := Fallible.mapM_isOk_iff.mp ⟨texts, ht⟩ state hs
    have hm := (Fallible.mem_of_mapM ht).mpr ⟨state, hs, hd⟩
    refine ⟨text, hd, encodable_strip.mp ?_⟩
    by_cases hne : Separator.strip newline text = []
    · rw [hne]
      exact encodable_iff.mpr (by simp)
    · exact hl _ (List.mem_filter.mpr ⟨List.mem_map_of_mem hm, by simpa using hne⟩)
  · obtain ⟨text, hm, rfl⟩ := List.mem_map.mp (List.mem_filter.mp hl).1
    obtain ⟨state, hstate, hd⟩ := (Fallible.mem_of_mapM ht).mp hm
    obtain ⟨text', hd', henc⟩ := hs state hstate
    have : text' = text := by simpa [hd] using hd'.symm
    exact encodable_strip.mpr (this ▸ henc)
  · obtain ⟨line, hline⟩ := Fallible.mapM_isOk_iff.mp ⟨assigned, ha⟩ entry (Dict.mem_sorted.mpr he)
    have hm := (Fallible.mem_of_mapM ha).mpr ⟨entry, Dict.mem_sorted.mpr he, hline⟩
    exact (encodable_assignment hline).mp (hl line hm)
  · obtain ⟨entry, hm, hline⟩ := (Fallible.mem_of_mapM ha).mp hl
    exact (encodable_assignment hline).mpr (he entry (Dict.mem_sorted.mp hm))

theorem buildPayload_isOk_iff {rt : Runtime} {states : List StrOrBytes} {fields : Dict Str Value} :
    (∃ data, buildPayload rt states fields = .ok data) ↔ Acceptable rt states fields := by
  constructor
  · rintro ⟨data, h⟩
    obtain ⟨lines, hl, h⟩ := Fallible.bind_eq_ok.mp h
    have hok := payloadLines_isOk_iff.mp ⟨lines, hl⟩
    split at h
    · simp at h
    · next hne =>
      have henc := (payloadLines_encodable_iff hl).mp (encodable_joined.mp ⟨data, h⟩)
      refine ⟨henc.1, fun entry he => (assignment_isOk_iff.mp (hok.2 entry he)).1, henc.2,
        fun entry he value hv => ?_, (payloadLines_ne_nil_iff hl).mp hne⟩
      obtain ⟨value', hv', hnl⟩ := (assignment_isOk_iff.mp (hok.2 entry he)).2
      have : value' = value := by simpa [hv] using hv'.symm
      exact this ▸ hnl
  · intro hacc
    obtain ⟨lines, hl⟩ : ∃ lines, payloadLines rt states fields = .ok lines := by
      refine payloadLines_isOk_iff.mpr ⟨fun state hs => ?_, fun entry he => ?_⟩
      · obtain ⟨text, hd, _⟩ := hacc.texts state hs
        exact ⟨text, hd⟩
      · obtain ⟨value, hv, _⟩ := hacc.values entry he
        exact assignment_isOk_iff.mpr
          ⟨hacc.names entry he, value, hv, hacc.newlines entry he value hv⟩
    have hne := (payloadLines_ne_nil_iff hl).mpr hacc.nonempty
    obtain ⟨data, hd⟩ := encodable_joined.mpr
      ((payloadLines_encodable_iff hl).mpr ⟨hacc.texts, hacc.values⟩)
    exact ⟨data, by simp only [buildPayload, hl, Fallible.ok_bind, hne, if_false]; exact hd⟩

theorem assignment_error {rt : Runtime} {entry : Str × Value} {e : PyErr}
    (h : assignment rt entry = .error e) : e.IsValueError := by
  rcases Fallible.bind_eq_error.mp h with hn | ⟨upper, _, h⟩
  · exact checkName_error hn
  · rcases Fallible.bind_eq_error.mp h with hv | ⟨value, _, h⟩
    · cases hentry : entry.2 with
      | bytes b =>
        rw [hentry] at hv
        simp [decodeUtf8_error hv, PyErr.IsValueError]
      | bool b => cases b <;> simp [hentry, formatValue] at hv
      | _ => simp [hentry, formatValue] at hv
    · split at h
      · simp only [Fallible.throw_eq_error, Fallible.error_bind, Except.error.injEq] at h
        simp [← h, PyErr.IsValueError]
      · simp at h

theorem buildPayload_error {rt : Runtime} {states : List StrOrBytes} {fields : Dict Str Value}
    {e : PyErr} (h : buildPayload rt states fields = .error e) : e.IsValueError := by
  rcases Fallible.bind_eq_error.mp h with hl | ⟨lines, _, h⟩
  · rcases Fallible.bind_eq_error.mp hl with ht | ⟨texts, _, h⟩
    · obtain ⟨state, _, hd⟩ := Fallible.mapM_eq_error ht
      cases state with
      | text s => simp [StrOrBytes.decode] at hd
      | bytes b => simp [decodeUtf8_error hd, PyErr.IsValueError]
    · rcases Fallible.bind_eq_error.mp h with ha | ⟨_, _, h⟩
      · obtain ⟨entry, _, hentry⟩ := Fallible.mapM_eq_error ha
        exact assignment_error hentry
      · simp at h
  · split at h
    · simp only [Fallible.throw_eq_error, Fallible.error_bind, Except.error.injEq] at h
      simp [← h, PyErr.IsValueError]
    · simp only at h
      simp [encodeUtf8_error h, PyErr.IsValueError]

theorem get?_fields {datagram : Datagram} {lines : List Str} (h : datagram.lines = .ok lines) :
    ∃ parsed, datagram.fields = .ok parsed ∧
      ∀ name, parsed.get? name = Dict.lastOf (lines.map Datagram.parseLine) name := by
  refine ⟨_, by simp only [Datagram.fields, h]; rfl, fun name => ?_⟩
  rw [Dict.get?_setAll, Dict.get?_empty, Option.or_none]

theorem formatted_keys {rt : Runtime} {entries : List (Str × Value)} {pairs : List (Str × Str)}
    (h : entries.mapM (formatted rt) = .ok pairs) :
    pairs.map Prod.fst = entries.map fun entry => rt.upper entry.1 := by
  have hf := Fallible.mapM_eq_ok.mp h
  clear h
  induction hf with
  | nil => rfl
  | cons hpair _ ih =>
    obtain ⟨value, _, hpair⟩ := Fallible.bind_eq_ok.mp hpair
    simp only [Fallible.pure_eq_ok, Except.ok.injEq] at hpair
    simp [← hpair, ih]

theorem get?_fields_buildPayload {rt : Runtime} {fields : Dict Str Value} {data : Bytes}
    (h : buildPayload rt [] fields = .ok data) (fds : List Int)
    (hdistinct : (fields.entries.map fun entry => rt.upper entry.1).Nodup) :
    ∃ parsed, (Datagram.mk data fds).fields = .ok parsed ∧ ∀ name value,
      parsed.get? name = some value ↔
        ∃ entry ∈ fields.entries, rt.upper entry.1 = name ∧ formatValue entry.2 = .ok value := by
  obtain ⟨texts, pairs, ht, hp, hequals, hlines⟩ := lines_buildPayload h fds
  obtain ⟨parsed, hparsed, hget⟩ := get?_fields hlines
  have htexts : texts = [] := by simpa using ht.symm
  have hparse : (pairs.map assign).map Datagram.parseLine = pairs := by
    rw [List.map_map]
    calc pairs.map _ = pairs.map id :=
          List.map_congr_left fun pair hm => parseLine_assign (hequals pair hm)
      _ = pairs := List.map_id _
  have hkeys : (pairs.map Prod.fst).Nodup := by
    rw [formatted_keys hp]
    exact (fields.sorted_perm.map _).nodup_iff.mpr hdistinct
  refine ⟨parsed, hparsed, fun name value => ?_⟩
  rw [hget, htexts, List.flatMap_nil, List.nil_append, hparse, Dict.lastOf_eq_some_iff_mem hkeys,
    Fallible.mem_of_mapM hp]
  simp [formatted, Fallible.bind_eq_ok, and_comm]

/-- The reasons for which a payload cannot be built. -/
inductive Rejected (rt : Runtime) (states : List StrOrBytes) (fields : Dict Str Value) : Prop where
  | nothingToSend (hfields : fields.entries = [])
      (hstates : ∀ state ∈ states, ∀ text, state.decode = .ok text →
        Separator.pieces newline text = [])
  | invalidName (entry : Str × Value) (hentry : entry ∈ fields.entries) (e : PyErr)
      (hname : checkName rt entry.1 = .error e)
  | newlineValue (entry : Str × Value) (hentry : entry ∈ fields.entries) (value : Str)
      (hvalue : formatValue entry.2 = .ok value) (hnewline : newline ∈ value)
  | unconvertibleValue (entry : Str × Value) (hentry : entry ∈ fields.entries)
      (hvalue : ∀ value, formatValue entry.2 = .ok value → ¬ Encodable value)
  | unconvertibleState (state : StrOrBytes) (hstate : state ∈ states)
      (htext : ∀ text, state.decode = .ok text → ¬ Encodable text)

theorem Acceptable.not_rejected {rt : Runtime} {states : List StrOrBytes} {fields : Dict Str Value}
    (hacc : Acceptable rt states fields) : ¬ Rejected rt states fields := by
  intro hrej
  cases hrej with
  | nothingToSend hfields hstates =>
    rcases hacc.nonempty with hne | ⟨state, hs, text, hd, hne⟩
    · exact hne hfields
    · exact hne (hstates state hs text hd)
  | invalidName entry hentry e hname =>
    obtain ⟨upper, hupper⟩ := hacc.names entry hentry
    simp [hupper] at hname
  | newlineValue entry hentry value hvalue hnewline =>
    exact hacc.newlines entry hentry value hvalue hnewline
  | unconvertibleValue entry hentry hvalue =>
    obtain ⟨value, hv, henc⟩ := hacc.values entry hentry
    exact hvalue value hv henc
  | unconvertibleState state hstate htext =>
    obtain ⟨text, hd, henc⟩ := hacc.texts state hstate
    exact htext text hd henc

theorem Acceptable.of_not_rejected {rt : Runtime} {states : List StrOrBytes} {fields : Dict Str Value}
    (hrej : ¬ Rejected rt states fields) : Acceptable rt states fields where
  texts state hs := by
    by_contra hn
    push Not at hn
    exact hrej (.unconvertibleState state hs hn)
  names entry he := by
    rcases Fallible.isOk_or_isError (checkName rt entry.1) with h | ⟨e, h⟩
    · exact h
    · exact absurd (.invalidName entry he e h) hrej
  values entry he := by
    by_contra hn
    push Not at hn
    exact hrej (.unconvertibleValue entry he hn)
  newlines entry he value hv hnl := hrej (.newlineValue entry he value hv hnl)
  nonempty := by
    by_contra hn
    push Not at hn
    exact hrej (.nothingToSend hn.1 hn.2)

/-- A payload that can be built reads back as the pieces of the raw states
followed by one line for each field, and nothing a value holds adds a line; a
payload is refused, with a value error, exactly for the listed reasons. -/
theorem payload_round_trip (rt : Runtime) (states : List StrOrBytes) (fields : Dict Str Value) :
    (∀ data fds, buildPayload rt states fields = .ok data →
      ∃ lines parsed, expectedLines rt states fields = .ok lines ∧
        (Datagram.mk data fds).lines = .ok lines ∧ (Datagram.mk data fds).fields = .ok parsed ∧
        (∀ name, parsed.get? name = Dict.lastOf (lines.map Datagram.parseLine) name) ∧
        (states = [] → (fields.entries.map fun entry => rt.upper entry.1).Nodup →
          ∀ name value, parsed.get? name = some value ↔
            ∃ entry ∈ fields.entries, rt.upper entry.1 = name ∧
              formatValue entry.2 = .ok value)) ∧
    ((∃ e, buildPayload rt states fields = .error e ∧ e.IsValueError) ↔
      Rejected rt states fields) ∧
    ∀ e, buildPayload rt states fields = .error e → e.IsValueError := by
  refine ⟨fun data fds h => ?_, ⟨?_, fun hrej => ?_⟩, fun e h => buildPayload_error h⟩
  · obtain ⟨texts, pairs, ht, hp, _, hlines⟩ := lines_buildPayload h fds
    obtain ⟨parsed, hparsed, hget⟩ := get?_fields hlines
    refine ⟨_, parsed, expectedLines_eq ht hp, hlines, hparsed, hget, ?_⟩
    rintro rfl hdistinct
    obtain ⟨parsed', hparsed', hfields⟩ := get?_fields_buildPayload h fds hdistinct
    rw [hparsed, Except.ok.injEq] at hparsed'
    exact hparsed' ▸ hfields
  · rintro ⟨e, h, _⟩
    by_contra hrej
    obtain ⟨data, hok⟩ := buildPayload_isOk_iff.mpr (.of_not_rejected hrej)
    simp [h] at hok
  · rcases Fallible.isOk_or_isError (buildPayload rt states fields) with h | ⟨e, h⟩
    · exact absurd hrej (buildPayload_isOk_iff.mp h).not_rejected
    · exact ⟨e, h, buildPayload_error h⟩

theorem payload_round_trip_unixPort :
    ∃ lines parsed,
      expectedLines .unixPort [.text (str "\nREADY=1\n\nX")]
        (Dict.empty.set (str "status") (.text (str "a=b"))) = .ok lines ∧
      (Datagram.mk (bytes "READY=1\n\nX\nSTATUS=a=b\n") []).lines = .ok lines ∧
      (Datagram.mk (bytes "READY=1\n\nX\nSTATUS=a=b\n") []).fields = .ok parsed := by
  obtain ⟨lines, parsed, hexpected, hlines, hfields, _⟩ :=
    (payload_round_trip .unixPort [.text (str "\nREADY=1\n\nX")]
      (Dict.empty.set (str "status") (.text (str "a=b")))).1
      (bytes "READY=1\n\nX\nSTATUS=a=b\n") [] (by decide)
  exact ⟨lines, parsed, hexpected, hlines, hfields⟩

end Mpsystemd
