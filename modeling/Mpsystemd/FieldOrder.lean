import Mpsystemd.Datagram
import Mpsystemd.JournalFields

/-! The order in which the fields of a mapping are emitted, and what it depends
on. -/

namespace Mpsystemd

open Journal (Fields encodeField encodeFields emitted readFields)

variable {rt : Runtime} {fields other : Dict Str Value}

/-- Upper casing the names keeps the order in which they were sorted. -/
def KeepsOrder (rt : Runtime) (fields : Dict Str Value) : Prop :=
  ∀ a ∈ fields.entries, ∀ b ∈ fields.entries, a.1 < b.1 → rt.upper a.1 < rt.upper b.1

/-- A field under its name on the wire. -/
def upperField (rt : Runtime) (entry : Str × Value) : Str × Value := (rt.upper entry.1, entry.2)

/-- The same values under the same names, but for their letter case. -/
def SameFields (rt : Runtime) (fields other : Dict Str Value) : Prop :=
  (fields.entries.map (upperField rt)).Perm (other.entries.map (upperField rt))

instance : DecidablePred (KeepsOrder rt) := fun fields =>
  inferInstanceAs (Decidable (∀ a ∈ fields.entries, ∀ b ∈ fields.entries, a.1 < b.1 → rt.upper a.1 < rt.upper b.1))

instance : DecidableRel (SameFields rt) := fun _ _ => inferInstanceAs (Decidable (List.Perm _ _))

/-! The names on the wire. -/

theorem names_buildPayload {data : Bytes} (h : buildPayload rt [] fields = .ok data) (fds : List Int) :
    ∃ lines, (Datagram.mk data fds).lines = .ok lines ∧
      (lines.map fun line => (Datagram.parseLine line).1) = fields.sorted.map fun entry => rt.upper entry.1 := by
  obtain ⟨texts, pairs, htexts, hpairs, hequals, hlines⟩ := lines_buildPayload h fds
  have htexts : texts = [] := by simpa using htexts.symm
  rw [htexts, List.flatMap_nil, List.nil_append] at hlines
  refine ⟨pairs.map assign, hlines, ?_⟩
  rw [← formatted_keys hpairs, List.map_map]
  exact List.map_congr_left fun pair hpair => congrArg Prod.fst (parseLine_assign (hequals pair hpair))

theorem emitted_keys {items : List (Str × Value)} {entries : List (Str × Bytes)}
    (h : items.mapM (emitted rt) = .ok entries) :
    entries.map Prod.fst = items.map fun item => rt.upper item.1 := by
  have hall := Fallible.mapM_eq_ok.mp h
  clear h
  induction hall with
  | nil => rfl
  | cons hitem _ ih =>
    obtain ⟨raw, -, hentry⟩ := Fallible.bind_eq_ok.mp hitem
    simp only [Fallible.pure_eq_ok, Except.ok.injEq] at hentry
    simp [← hentry, ih]

theorem names_encodeFields {body : Bytes} (h : encodeFields rt (.mapping fields) = .ok body) :
    ∃ entries, readFields body = .ok entries ∧
      entries.map Prod.fst = fields.sorted.map fun entry => rt.upper entry.1 := by
  obtain ⟨entries, hentries, hread⟩ := Journal.readFields_encodeFields rt h
  exact ⟨entries, hread, emitted_keys hentries⟩

/-! What the bytes depend on. -/

theorem sorted_upperField (hfields : KeepsOrder rt fields) (hother : KeepsOrder rt other)
    (hsame : SameFields rt fields other) :
    fields.sorted.map (upperField rt) = other.sorted.map (upperField rt) := by
  have hascending : ∀ {d : Dict Str Value}, KeepsOrder rt d →
      (d.sorted.map (upperField rt)).Pairwise (fun a b => a.1 < b.1) := by
    intro d hd
    exact List.pairwise_map.mpr (List.pairwise_map.mp ((d.sorted_map_pairwise_iff rt.upper).mpr hd))
  have hperm : (fields.sorted.map (upperField rt)).Perm (other.sorted.map (upperField rt)) :=
    ((fields.sorted_perm.map _).trans hsame).trans (other.sorted_perm.map _).symm
  refine hperm.eq_of_pairwise (fun a b _ _ hab hba => ?_) (hascending hfields) (hascending hother)
  exact absurd hba hab.asymm

theorem buildPayload_eq_ok {data : Bytes} (h : buildPayload rt [] fields = .ok data) :
    ∃ pairs, fields.sorted.mapM (formatted rt) = .ok pairs ∧
      encodeUtf8 ([newline].intercalate (pairs.map assign) ++ [newline]) = .ok data := by
  obtain ⟨lines, hlines, h⟩ := Fallible.bind_eq_ok.mp h
  obtain ⟨texts, htexts, hlines⟩ := Fallible.bind_eq_ok.mp hlines
  obtain ⟨assigned, hassigned, hlines⟩ := Fallible.bind_eq_ok.mp hlines
  obtain ⟨pairs, hpairs, rfl, -, -⟩ := assignments_ok hassigned
  have htexts : texts = [] := by simpa using htexts.symm
  simp only [htexts, List.map_nil, List.filter_nil, List.nil_append, Fallible.pure_eq_ok, Except.ok.injEq] at hlines
  refine ⟨pairs, hpairs, ?_⟩
  split at h
  · simp at h
  · rwa [← hlines] at h

theorem formatted_mapM (entries : List (Str × Value)) : entries.mapM (formatted rt) =
    (entries.map (upperField rt)).mapM fun field => (fun value => (field.1, value)) <$> formatValue field.2 := by
  induction entries with
  | nil => rfl
  | cons entry entries ih =>
    rw [List.map_cons, List.mapM_cons, List.mapM_cons, ih]
    rfl

theorem buildPayload_congr {data data' : Bytes}
    (hsorted : fields.sorted.map (upperField rt) = other.sorted.map (upperField rt))
    (h : buildPayload rt [] fields = .ok data) (h' : buildPayload rt [] other = .ok data') : data = data' := by
  obtain ⟨pairs, hpairs, hdata⟩ := buildPayload_eq_ok h
  obtain ⟨pairs', hpairs', hdata'⟩ := buildPayload_eq_ok h'
  rw [formatted_mapM, hsorted, ← formatted_mapM, hpairs', Except.ok.injEq] at hpairs
  rw [← hpairs, hdata', Except.ok.injEq] at hdata
  exact hdata.symm

theorem encodeField_congr {name name' : Str} {value : Value} {part part' : Bytes}
    (hupper : rt.upper name = rt.upper name') (h : encodeField rt name value = .ok part)
    (h' : encodeField rt name' value = .ok part') : part = part' := by
  obtain ⟨upper, hname, h⟩ := Fallible.bind_eq_ok.mp h
  obtain ⟨upper', hname', h'⟩ := Fallible.bind_eq_ok.mp h'
  have heq : upper = upper' := by
    rw [(Journal.checkFieldName_ok hname).1, (Journal.checkFieldName_ok hname').1, hupper]
  rw [heq, h', Except.ok.injEq] at h
  exact h.symm

theorem parts_congr {items items' : List (Str × Value)} {parts parts' : List Bytes}
    (hsame : items.map (upperField rt) = items'.map (upperField rt))
    (h : List.Forall₂ (fun item part => encodeField rt item.1 item.2 = .ok part) items parts)
    (h' : List.Forall₂ (fun item part => encodeField rt item.1 item.2 = .ok part) items' parts') :
    parts = parts' := by
  induction h generalizing items' parts' with
  | nil =>
    cases h' with
    | nil => rfl
    | cons _ _ => cases hsame
  | cons hpart _ ih =>
    cases h' with
    | nil => cases hsame
    | cons hpart' hrest' =>
      simp only [List.map_cons, List.cons.injEq, upperField, Prod.mk.injEq] at hsame
      obtain ⟨⟨hupper, hvalue⟩, hsame⟩ := hsame
      rw [hvalue] at hpart
      rw [encodeField_congr hupper hpart hpart', ih hsame hrest']

theorem encodeFields_congr {body body' : Bytes}
    (hsorted : fields.sorted.map (upperField rt) = other.sorted.map (upperField rt))
    (h : encodeFields rt (.mapping fields) = .ok body) (h' : encodeFields rt (.mapping other) = .ok body') :
    body = body' := by
  have hparts : ∀ {d : Dict Str Value} {b : Bytes}, encodeFields rt (.mapping d) = .ok b → ∃ parts,
      b = List.flatten parts ∧
        List.Forall₂ (fun item part => encodeField rt item.1 item.2 = .ok part) d.sorted parts := by
    intro d b hd
    rw [encodeFields] at hd
    split at hd
    · cases hd
    · obtain ⟨parts, hall, hb⟩ := Fallible.bind_eq_ok.mp hd
      simp only [Fallible.pure_eq_ok, Except.ok.injEq] at hb
      exact ⟨parts, hb.symm, Fallible.mapM_eq_ok.mp hall⟩
  obtain ⟨parts, rfl, hall⟩ := hparts h
  obtain ⟨parts', rfl, hall'⟩ := hparts h'
  rw [parts_congr hsorted hall hall']

/-! Sorted on the wire. -/

def PayloadAscends (data : Bytes) : Prop :=
  ∃ lines, (Datagram.mk data []).lines = .ok lines ∧
    (lines.map fun line => (Datagram.parseLine line).1).Pairwise (· < ·)

def EntryAscends (body : Bytes) : Prop :=
  ∃ entries, readFields body = .ok entries ∧ (entries.map Prod.fst).Pairwise (· < ·)

theorem payloadAscends_iff {data : Bytes} (h : buildPayload rt [] fields = .ok data) :
    PayloadAscends data ↔ KeepsOrder rt fields := by
  obtain ⟨lines, hlines, hnames⟩ := names_buildPayload h []
  rw [KeepsOrder, ← fields.sorted_map_pairwise_iff rt.upper, ← hnames]
  constructor
  · rintro ⟨lines', hlines', hascends⟩
    rw [hlines, Except.ok.injEq] at hlines'
    exact hlines' ▸ hascends
  · exact fun hascends => ⟨lines, hlines, hascends⟩

theorem entryAscends_iff {body : Bytes} (h : encodeFields rt (.mapping fields) = .ok body) :
    EntryAscends body ↔ KeepsOrder rt fields := by
  obtain ⟨entries, hread, hnames⟩ := names_encodeFields h
  rw [KeepsOrder, ← fields.sorted_map_pairwise_iff rt.upper, ← hnames]
  constructor
  · rintro ⟨entries', hread', hascends⟩
    rw [hread, Except.ok.injEq] at hread'
    exact hread' ▸ hascends
  · exact fun hascends => ⟨entries, hread, hascends⟩

/-- The names on the wire are strictly ascending exactly when upper casing kept
the order in which they were sorted; a mapping of which that is true and one of
the same fields give the same bytes exactly when it is true of the other too. -/
theorem names_ascending_iff (rt : Runtime) (fields : Dict Str Value) :
    (∀ data, buildPayload rt [] fields = .ok data → (PayloadAscends data ↔ KeepsOrder rt fields)) ∧
    (∀ body, encodeFields rt (.mapping fields) = .ok body → (EntryAscends body ↔ KeepsOrder rt fields)) ∧
    ∀ other, KeepsOrder rt fields → SameFields rt fields other →
      (∀ data data', buildPayload rt [] fields = .ok data → buildPayload rt [] other = .ok data' →
        (data = data' ↔ KeepsOrder rt other)) ∧
      ∀ body body', encodeFields rt (.mapping fields) = .ok body →
        encodeFields rt (.mapping other) = .ok body' → (body = body' ↔ KeepsOrder rt other) := by
  refine ⟨fun data h => payloadAscends_iff h, fun body h => entryAscends_iff h, fun other hfields hsame => ?_⟩
  refine ⟨fun data data' h h' => ⟨fun heq => ?_, fun hother => ?_⟩,
    fun body body' h h' => ⟨fun heq => ?_, fun hother => ?_⟩⟩
  · exact (payloadAscends_iff h').mp (heq ▸ (payloadAscends_iff h).mpr hfields)
  · exact buildPayload_congr (sorted_upperField hfields hother hsame) h h'
  · exact (entryAscends_iff h').mp (heq ▸ (entryAscends_iff h).mpr hfields)
  · exact encodeFields_congr (sorted_upperField hfields hother hsame) h h'

def lowerFields : Dict Str Value := Dict.empty.setAll [(str "a", .text (str "2")), (str "b", .text (str "1"))]

def mixedFields : Dict Str Value := Dict.empty.setAll [(str "a", .text (str "2")), (str "B", .text (str "1"))]

theorem names_ascending_iff_lower :
    PayloadAscends (bytes "A=2\nB=1\n") ∧ EntryAscends (bytes "A=2\nB=1\n") ∧
      bytes "A=2\nB=1\n" ≠ bytes "B=1\nA=2\n" := by
  have hkeeps : KeepsOrder .unixPort lowerFields := by decide
  obtain ⟨hpayload, hentry, hother⟩ := names_ascending_iff .unixPort lowerFields
  have hmixed := (hother mixedFields hkeeps (by decide)).1 (bytes "A=2\nB=1\n") (bytes "B=1\nA=2\n")
    (by decide) (by decide)
  refine ⟨(hpayload _ (by decide)).mpr hkeeps, (hentry _ (by decide)).mpr hkeeps, fun heq => ?_⟩
  exact absurd (hmixed.mp heq) (by decide)

/-- A name in capitals is sorted before one in lower case. -/
theorem mixed_names_descend :
    buildPayload .unixPort [] mixedFields = .ok (bytes "B=1\nA=2\n") ∧
      encodeFields .unixPort (.mapping mixedFields) = .ok (bytes "B=1\nA=2\n") ∧
      (mixedFields.entries.map fun entry => Runtime.unixPort.upper entry.1).Nodup ∧
      SameFields .unixPort lowerFields mixedFields ∧
      buildPayload .unixPort [] lowerFields = .ok (bytes "A=2\nB=1\n") ∧
      ¬ PayloadAscends (bytes "B=1\nA=2\n") ∧ ¬ EntryAscends (bytes "B=1\nA=2\n") := by
  have hpayload : buildPayload .unixPort [] mixedFields = .ok (bytes "B=1\nA=2\n") := by decide
  have hentry : encodeFields .unixPort (.mapping mixedFields) = .ok (bytes "B=1\nA=2\n") := by decide
  have hkeeps : ¬ KeepsOrder .unixPort mixedFields := by decide
  exact ⟨hpayload, hentry, by decide, by decide, by decide, fun h => hkeeps ((payloadAscends_iff hpayload).mp h),
    fun h => hkeeps ((entryAscends_iff hentry).mp h)⟩

/-! The order of the mapping. -/

/-- Two enumerations of the same mapping give the same bytes or the same error. -/
theorem outcome_of_perm (rt : Runtime) (states : List StrOrBytes) {fields other : Dict Str Value}
    (h : fields.entries.Perm other.entries) :
    buildPayload rt states fields = buildPayload rt states other ∧
      encodeFields rt (.mapping fields) = encodeFields rt (.mapping other) := by
  have hsorted := Dict.sorted_eq_of_perm h
  have hitems : (Fields.mapping fields).items = (Fields.mapping other).items := hsorted
  constructor
  · rw [buildPayload, buildPayload, payloadLines, payloadLines, hsorted]
  · rw [encodeFields, encodeFields, hitems]

theorem outcome_of_perm_swapped :
    buildPayload .unixPort [.text (str "READY=1")]
        (Dict.empty.setAll [(str "b", .text (str "1")), (str "a-", .text [newline])]) =
      buildPayload .unixPort [.text (str "READY=1")]
        (Dict.empty.setAll [(str "a-", .text [newline]), (str "b", .text (str "1"))]) ∧
    encodeFields .unixPort
      (.mapping (Dict.empty.setAll [(str "b", .text (str "1")), (str "a-", .text [newline])])) =
      encodeFields .unixPort
        (.mapping (Dict.empty.setAll [(str "a-", .text [newline]), (str "b", .text (str "1"))])) :=
  outcome_of_perm .unixPort _ (by decide)

end Mpsystemd
