import ViewWiring.Diagnostic.Record
import ViewWiring.Proofs.Text.JsonString

namespace ViewWiring.Diagnostic

/-- What a field of a record holds: a text or a list of texts. -/
inductive FieldValue
  | text (t : String)
  | texts (ts : List String)
  deriving DecidableEq

def FieldValue.encode : FieldValue → String
  | text t => JsonString.encode t
  | texts ts => "[" ++ ",".intercalate (ts.map JsonString.encode) ++ "]"

/-- The fields of the record before they are written down. -/
def fields (d : Diagnostic) : List (String × FieldValue) :=
  [("severity", .text "error"), ("code", .text d.kind.code), ("kind", .text d.kind.name),
    ("message", .text d.message)] ++
  (d.anchor.map fun a => ("anchor", .text a.text)).toList ++
  if d.notes.isEmpty then [] else [("notes", .texts d.notes)]

theorem recordFields_eq (d : Diagnostic) :
    d.recordFields = d.fields.map fun field => (field.1, field.2.encode) := by
  obtain ⟨kind, message, anchor, notes⟩ := d
  rw [fields, List.map_append, List.map_append]
  cases anchor <;> cases notes <;> rfl

def fieldText (field : String × FieldValue) : List Char :=
  (JsonString.encode field.1).toList ++ ([':'] ++ field.2.encode.toList)

theorem toList_record (d : Diagnostic) :
    d.record.toList = ['\x7b'] ++ ([','].intercalate (d.fields.map fieldText) ++ ['\x7d']) := by
  rw [record, recordFields_eq, String.toList_append, String.toList_append,
    String.toList_intercalate, List.map_map, List.map_map, List.append_assoc]
  refine congrArg (fun texts => ['\x7b'] ++ ([','].intercalate texts ++ ['\x7d']))
    (List.map_congr_left ?_)
  intro field _
  simp [fieldText]

section Codes

theorem isPrefixCode_texts :
    IsPrefixCode fun ts : List String => (FieldValue.texts ts).encode.toList := by
  have hquote : ∀ t x y, (JsonString.encode t).toList ++ x ≠ ']' :: y := by
    intro t x y h
    rw [JsonString.toList_encode] at h
    exact absurd (List.head_eq_of_cons_eq h) (by decide)
  have hcode := (JsonString.isPrefixCode_encode.separated ',' (by decide) hquote).behind ['[']
  intro ts ts' h
  apply hcode
  simpa [FieldValue.encode, Function.comp_def] using h

/-- A text begins with a quote and a list with a bracket. -/
theorem isPrefixCode_fieldValue : IsPrefixCode fun v : FieldValue => v.encode.toList := by
  intro v v' h
  cases v with
  | text t =>
    cases v' with
    | text t' => exact congrArg _ (JsonString.isPrefixCode_encode h)
    | texts ts' => simp [FieldValue.encode, JsonString.toList_encode] at h
  | texts ts =>
    cases v' with
    | text t' => simp [FieldValue.encode, JsonString.toList_encode] at h
    | texts ts' => exact congrArg _ (isPrefixCode_texts h)

theorem isPrefixCode_fieldText : IsPrefixCode fieldText := by
  intro field field' h
  have hpair := JsonString.isPrefixCode_encode.pair (isPrefixCode_fieldValue.behind [':'])
  exact hpair h

theorem record_eq_iff {d d' : Diagnostic} : d.record = d'.record ↔ d.fields = d'.fields := by
  have hquote : ∀ field x y, fieldText field ++ x ≠ '\x7d' :: y := by
    intro field x y h
    rw [fieldText, JsonString.toList_encode] at h
    exact absurd (List.head_eq_of_cons_eq h) (by decide)
  have hcode := (isPrefixCode_fieldText.separated ',' (by decide) hquote).behind ['\x7b']
  rw [← String.toList_inj, toList_record, toList_record]
  exact hcode.injective.eq_iff

end Codes

section Fields

variable (d : Diagnostic)

theorem lookup_kind : d.fields.lookup "kind" = some (.text d.kind.name) := rfl

theorem lookup_message : d.fields.lookup "message" = some (.text d.message) := rfl

theorem lookup_anchor : d.fields.lookup "anchor" = d.anchor.map fun a => .text a.text := by
  obtain ⟨kind, message, anchor, notes⟩ := d
  cases anchor <;> cases notes <;> rfl

theorem lookup_notes :
    d.fields.lookup "notes" = if d.notes.isEmpty then none else some (.texts d.notes) := by
  obtain ⟨kind, message, anchor, notes⟩ := d
  cases anchor <;> cases notes <;> rfl

end Fields

theorem Kind.name_injective : Function.Injective Kind.name := by
  have hname : ∀ k : Kind, Kind.ofName? k.name = some k := by
    intro k
    cases k <;> decide
  intro k k' h
  exact Option.some.inj ((hname k).symm.trans ((congrArg Kind.ofName? h).trans (hname k')))

/-- An anchor whose component can be told from its member. -/
def Anchor.IsPlain (a : Anchor) : Prop := '#' ∉ a.component.text.toList

/-- The component reaches up to the first number sign. -/
theorem Anchor.eq_of_text_eq {a b : Anchor} (ha : a.IsPlain) (hb : b.IsPlain)
    (h : a.text = b.text) : a = b := by
  let tail (member : Option String) : List Char := member.elim [] fun m => '#' :: m.toList
  have htext : ∀ c : Anchor, c.text.toList = c.component.text.toList ++ tail c.member := by
    rintro ⟨component, member⟩
    cases member <;> simp [text, tail]
  have hcomponent : ∀ c : Anchor, c.IsPlain →
      c.text.toList.takeWhile (· != '#') = c.component.text.toList := by
    intro c hc
    have hpass : ∀ x ∈ c.component.text.toList, (x != '#') = true := by
      intro x hx
      simpa using ne_of_mem_of_not_mem hx hc
    rw [htext, List.takeWhile_append_of_pos hpass]
    cases c.member <;> simp [tail]
  have hc : a.component.text.toList = b.component.text.toList := by
    rw [← hcomponent a ha, ← hcomponent b hb, h]
  have hmember : tail a.member = tail b.member := by
    have hboth := congrArg String.toList h
    rw [htext, htext, hc] at hboth
    exact List.append_cancel_left hboth
  obtain ⟨⟨component⟩, member⟩ := a
  obtain ⟨⟨component'⟩, member'⟩ := b
  obtain rfl := String.toList_inj.mp hc
  cases member with
  | none => cases member' <;> simp_all [tail]
  | some m => cases member' <;> simp_all [tail, String.toList_inj]

theorem toNat_of_mem_fieldText (field : String × FieldValue) :
    ∀ c ∈ fieldText field, 0x20 ≤ c.toNat := by
  obtain ⟨name, value⟩ := field
  rw [fieldText, List.forall_mem_append, List.forall_mem_append]
  refine ⟨JsonString.toNat_of_mem_encode name, List.forall_mem_singleton.mpr (by decide), ?_⟩
  cases value with
  | text t => exact JsonString.toNat_of_mem_encode t
  | texts ts =>
    have hlist : ∀ x ∈ ts.map fun t => (JsonString.encode t).toList, ∀ c ∈ x, 0x20 ≤ c.toNat := by
      intro x hx
      obtain ⟨t, -, rfl⟩ := List.mem_map.mp hx
      exact JsonString.toNat_of_mem_encode t
    have hinner := forall_mem_intercalate ',' (by decide) hlist
    simpa [FieldValue.encode, Function.comp_def, or_imp, forall_and] using hinner

/-- No control character is left in a record, so none breaks it over two lines. -/
theorem toNat_of_mem_record (d : Diagnostic) : ∀ c ∈ d.record.toList, 0x20 ≤ c.toNat := by
  have hfields : ∀ x ∈ d.fields.map fieldText, ∀ c ∈ x, 0x20 ≤ c.toNat := by
    intro x hx
    obtain ⟨field, -, rfl⟩ := List.mem_map.mp hx
    exact toNat_of_mem_fieldText field
  rw [toList_record, List.forall_mem_append, List.forall_mem_append]
  exact ⟨List.forall_mem_singleton.mpr (by decide), forall_mem_intercalate ',' (by decide) hfields,
    List.forall_mem_singleton.mpr (by decide)⟩

theorem notMem_record {c : Char} (hc : c.toNat < 0x20) (d : Diagnostic) : c ∉ d.record.toList :=
  fun h => Nat.not_lt.mpr (d.toNat_of_mem_record c h) hc

/-- Each part of a diagnostic stands under the name of its field. -/
theorem eq_of_fields_eq {d d' : Diagnostic} (hd : ∀ a ∈ d.anchor, a.IsPlain)
    (hd' : ∀ a ∈ d'.anchor, a.IsPlain) (h : d.fields = d'.fields) : d = d' := by
  have hread : ∀ name, d.fields.lookup name = d'.fields.lookup name := fun _ => by rw [h]
  have hkind : d.kind = d'.kind := by
    have hname := hread "kind"
    rw [lookup_kind, lookup_kind, Option.some.injEq, FieldValue.text.injEq] at hname
    exact Kind.name_injective hname
  have hmessage : d.message = d'.message := by
    have htext := hread "message"
    rwa [lookup_message, lookup_message, Option.some.injEq, FieldValue.text.injEq] at htext
  have hanchor : d.anchor = d'.anchor := by
    have htext := hread "anchor"
    rw [lookup_anchor, lookup_anchor] at htext
    cases ha : d.anchor with
    | none =>
      cases ha' : d'.anchor with
      | none => rfl
      | some a' => simp [ha, ha'] at htext
    | some a =>
      cases ha' : d'.anchor with
      | none => simp [ha, ha'] at htext
      | some a' =>
        rw [ha, ha', Option.map_some, Option.map_some, Option.some.injEq, FieldValue.text.injEq]
          at htext
        rw [Anchor.eq_of_text_eq (hd a ha) (hd' a' ha') htext]
  have hnotes : d.notes = d'.notes := by
    have hlist := hread "notes"
    rw [lookup_notes, lookup_notes] at hlist
    split_ifs at hlist with hn hn' hn'
    · rw [List.isEmpty_iff.mp hn, List.isEmpty_iff.mp hn']
    · rwa [Option.some.injEq, FieldValue.texts.injEq] at hlist
  obtain ⟨kind, message, anchor, notes⟩ := d
  obtain ⟨kind', message', anchor', notes'⟩ := d'
  obtain rfl : kind = kind' := hkind
  obtain rfl : message = message' := hmessage
  obtain rfl : anchor = anchor' := hanchor
  obtain rfl : notes = notes' := hnotes
  rfl

/-- Diagnostics with plain anchors that have the same record are the same, with their kind, message,
anchor and notes in order; and a record is one line. -/
theorem record_lossless :
    (∀ d d' : Diagnostic, (∀ a ∈ d.anchor, a.IsPlain) → (∀ a ∈ d'.anchor, a.IsPlain) →
      (d.record = d'.record ↔ d = d')) ∧
    ∀ d : Diagnostic, '\n' ∉ d.record.toList ∧ '\r' ∉ d.record.toList := by
  refine ⟨?_, fun d => ⟨notMem_record (by decide) d, notMem_record (by decide) d⟩⟩
  intro d d' hd hd'
  constructor
  · intro h
    exact eq_of_fields_eq hd hd' (record_eq_iff.mp h)
  · exact congrArg record

/-- A message spelt like the rest of another record is not taken for it. -/
theorem record_lossless_quoted :
    let d : Diagnostic := ⟨.invalidSignature, "x\",\"anchor\":\"a#b", none, ["one\ntwo"]⟩
    let d' : Diagnostic := ⟨.invalidSignature, "x", some ⟨⟨"a"⟩, some "b"⟩, ["one", "two"]⟩
    (∀ a ∈ d.anchor, a.IsPlain) ∧ (∀ a ∈ d'.anchor, a.IsPlain) ∧ d.record ≠ d'.record := by
  intro d d'
  have hd : ∀ a ∈ d.anchor, a.IsPlain := by simp [d]
  have hd' : ∀ a ∈ d'.anchor, a.IsPlain := by simp [d', Anchor.IsPlain]
  exact ⟨hd, hd', (record_lossless.1 d d' hd hd').not.mpr (by decide)⟩

end ViewWiring.Diagnostic
