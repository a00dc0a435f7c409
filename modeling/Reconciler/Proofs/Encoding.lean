import Reconciler.Proofs.Document.Sorted
import Reconciler.Proofs.Manifest
import Reconciler.Yaml.Reader
import Reconciler.Yaml.Writer

/-! References, conditions and batches as documents and back. A field is left out where reading puts
in the same value without it, and no other field is; only a configuration that is null is written and
not read again. -/
namespace Reconciler

open SortedMap (findEntry)

variable {d : Document}

namespace Ref

private theorem wellFormed_toDocument (r : Ref) : r.toDocument.WellFormed := by
  obtain ⟨⟨apiVersion, kind⟩, name, space⟩ := r
  have hak : compare "apiVersion" "kind" = .lt := by decide
  have han : compare "apiVersion" "name" = .lt := by decide
  have has : compare "apiVersion" "namespace" = .lt := by decide
  have hkn : compare "kind" "name" = .lt := by decide
  have hks : compare "kind" "namespace" = .lt := by decide
  have hns : compare "name" "namespace" = .lt := by decide
  rw [toDocument, Document.wellFormed_object]
  by_cases hn : name = ""
  · cases space <;> simp [hn, hak, has, hks, Document.WellFormed]
  · cases space <;> simp [hn, hak, han, has, hkn, hks, hns, Document.WellFormed]

private theorem decode_toDocument (r : Ref) : decode r.toDocument = .ok r := by
  obtain ⟨⟨apiVersion, kind⟩, name, space⟩ := r
  by_cases hn : name = ""
  · cases space <;> simp [decode, toDocument, hn, Decoder.record, Decoder.field, findEntry,
      Decoder.nullable, Decoder.string, Decoder.required] <;> rfl
  · cases space <;> simp [decode, toDocument, hn, Decoder.record, Decoder.field, findEntry,
      Decoder.nullable, Decoder.string, Decoder.required] <;> rfl

end Ref

namespace Notice

variable {n : Notice}

private theorem decode_severity (s : Severity) : Severity.decode (.string s.text) = .ok s := by
  cases s <;> rfl

/-- What a document holds from which a notice is read, in any order. -/
private structure HeldBy (n : Notice) (d : Document) : Prop where
  isObject : d.isObject = true
  message : d.get? ["message"] = some (.string n.message)
  severity : d.get? ["severity"] = some (.string n.severity.text)
  resource : d.get? ["resourceRef"] = n.resource.map Ref.toDocument

private theorem HeldBy.decode (h : n.HeldBy d) : Notice.decode d = .ok n := by
  obtain ⟨ho, hm, hs, hr⟩ := h
  cases d with
  | object fields =>
    rw [Document.get?_singleton] at hm hs hr
    have hmessage : Decoder.field fields "message" .string = .ok (some n.message) :=
      Decoder.field_eq_ok hm rfl
    have hseverity : Decoder.field fields "severity" Severity.decode = .ok (some n.severity) :=
      Decoder.field_eq_ok hs (decode_severity n.severity)
    obtain ⟨resource, hresource, hn⟩ := Decoder.field_nullable Ref.decode_toDocument hr
    have hall : n.resource.filter (fun r => !r.toDocument.isNull) = n.resource := by
      cases n.resource <;> rfl
    rw [Notice.decode, Decoder.record, hmessage, hresource, hseverity]
    exact congrArg (fun r => Except.ok (⟨n.message, n.severity, r⟩ : Notice)) (hn.trans hall)
  | _ => cases ho

private theorem HeldBy.sorted (h : n.HeldBy d) (hd : d.KeysDistinct) : n.HeldBy d.sorted := by
  have href (r : Ref) : r.toDocument.sorted = r.toDocument :=
    Document.sorted_of_wellFormed _ r.wellFormed_toDocument
  constructor
  case isObject => rw [Document.isObject_sorted, h.isObject]
  case message =>
    rw [Document.get?_sorted hd, h.message]
    rfl
  case severity =>
    rw [Document.get?_sorted hd, h.severity]
    rfl
  case resource =>
    rw [Document.get?_sorted hd, h.resource]
    cases n.resource <;> simp [href]

private theorem heldBy_toDocument (n : Notice) : n.HeldBy n.toDocument := by
  constructor
  case isObject => rfl
  all_goals
    rw [toDocument, Document.get?_singleton]
    cases n.resource <;> simp [findEntry]

private theorem keysDistinct_toDocument (n : Notice) : n.toDocument.KeysDistinct := by
  cases hr : n.resource <;> simp [Document.KeysDistinct, toDocument, Document.fields?, hr]

end Notice

namespace Batch

variable {b : Batch}

private def present (b : Batch) : Batch :=
  { b with functionConfig := b.functionConfig.filter fun r => !r.root.isNull }

private theorem present_eq_self_iff : b.present = b ↔ b.functionConfig ≠ some ⟨.null⟩ := by
  obtain ⟨apiVersion, kind, items, functionConfig, notices⟩ := b
  cases functionConfig with
  | none => simp [present]
  | some r =>
    obtain ⟨root⟩ := r
    cases root <;> simp [present, Document.isNull]

/-- What a document holds from which a batch is read, in any order. -/
private structure HeldBy (b : Batch) (d : Document) : Prop where
  isObject : d.isObject = true
  apiVersion : d.get? ["apiVersion"] = some (.string b.apiVersion)
  kind : d.get? ["kind"] = some (.string b.kind)
  items : d.get? ["items"] = some (.array (b.items.map (·.root)))
  functionConfig : d.get? ["functionConfig"] = b.functionConfig.map (·.root)
  notices : Decoder.list Notice.decode ((d.get? ["results"]).getD (.array [])) = .ok b.notices

private theorem HeldBy.decode (h : b.HeldBy d) : Batch.decode d = .ok b.present := by
  obtain ⟨ho, hv, hk, hi, hc, hn⟩ := h
  cases d with
  | object fields =>
    rw [Document.get?_singleton] at hv hk hi hc hn
    have hany (r : Resource) : decode.anyResource r.root = .ok r := rfl
    have hitems := Decoder.list_map hany b.items
    obtain ⟨config, hconfig, hpresent⟩ := Decoder.field_nullable hany hc
    obtain ⟨notices, hresults, hnotices⟩ : ∃ notices,
        Decoder.field fields "results" (.list Notice.decode) = .ok notices ∧
          notices.getD [] = b.notices := by
      cases hf : findEntry "results" fields with
      | none =>
        rw [hf] at hn
        exact ⟨none, by rw [Decoder.field, hf], Except.ok.inj hn⟩
      | some d =>
        rw [hf, Option.getD_some] at hn
        exact ⟨some b.notices, Decoder.field_eq_ok hf hn, rfl⟩
    have hversion : Decoder.field fields "apiVersion" .string = .ok (some b.apiVersion) :=
      Decoder.field_eq_ok hv rfl
    have hkind : Decoder.field fields "kind" .string = .ok (some b.kind) :=
      Decoder.field_eq_ok hk rfl
    rw [Batch.decode, Decoder.record, hversion, hconfig, Decoder.field_eq_ok hi hitems, hkind,
      hresults, present, ← hpresent, ← hnotices]
    rfl
  | _ => cases ho

theorem get?_results (b : Batch) : b.toDocument.get? ["results"] =
    if b.notices.isEmpty then none else some (.array (b.notices.map Notice.toDocument)) := by
  obtain ⟨apiVersion, kind, items, functionConfig, notices⟩ := b
  rw [toDocument, Document.get?_singleton]
  cases functionConfig <;> cases notices <;> simp [findEntry]

private theorem heldBy_toDocument (b : Batch) : b.HeldBy b.toDocument := by
  have hlist := Decoder.list_map (fun n : Notice => n.heldBy_toDocument.decode) b.notices
  constructor
  case isObject => rfl
  case notices =>
    rw [get?_results]
    cases hn : b.notices with
    | nil => rfl
    | cons n notices =>
      rw [hn] at hlist
      simpa using hlist
  all_goals
    rw [toDocument, Document.get?_singleton]
    cases b.functionConfig <;> cases b.notices <;> simp [findEntry]

private theorem keysDistinct_toDocument (b : Batch) : b.toDocument.KeysDistinct := by
  cases hc : b.functionConfig <;> cases hn : b.notices <;>
    simp [Document.KeysDistinct, toDocument, Document.fields?, hc, hn]

private theorem heldBy_sorted_toDocument (hi : ∀ r ∈ b.items, r.root.WellFormed)
    (hc : ∀ r ∈ b.functionConfig, r.root.WellFormed) : b.HeldBy b.toDocument.sorted := by
  have hd := b.keysDistinct_toDocument
  have hb := b.heldBy_toDocument
  have hlist := Decoder.list_map (f := Document.sorted ∘ Notice.toDocument)
    (fun n => (n.heldBy_toDocument.sorted n.keysDistinct_toDocument).decode) b.notices
  have hitems : (b.items.map (·.root)).map Document.sorted = b.items.map (·.root) := by
    rw [List.map_map]
    exact List.map_congr_left fun r hr => Document.sorted_of_wellFormed _ (hi r hr)
  constructor
  case isObject => rw [Document.isObject_sorted, hb.isObject]
  case apiVersion =>
    rw [Document.get?_sorted hd, hb.apiVersion]
    rfl
  case kind =>
    rw [Document.get?_sorted hd, hb.kind]
    rfl
  case items =>
    rw [Document.get?_sorted hd, hb.items, Option.map_some, Document.sorted,
      Document.sortedItems_eq_map, hitems]
  case functionConfig =>
    rw [Document.get?_sorted hd, hb.functionConfig]
    cases hf : b.functionConfig with
    | none => rfl
    | some r => simp [Document.sorted_of_wellFormed _ (hc r hf)]
  case notices =>
    rw [Document.get?_sorted hd, get?_results]
    cases hn : b.notices with
    | nil => rfl
    | cons n notices =>
      rw [hn] at hlist
      simpa [Document.sorted, Document.sortedItems_eq_map] using hlist

private theorem HeldBy.ofDocument (h : b.HeldBy d) : Batch.ofDocument d =
    match b.items.findIdx? fun r => !r.root.isObject with
    | some index => .error (.resource (.itemNotMapping index))
    | none => .ok b.present := by
  have hbad : (d.get? ["items"]).bind ofDocument.firstBad =
      b.items.findIdx? fun r => !r.root.isObject := by
    rw [h.items]
    simp [ofDocument.firstBad, List.findIdx?_map, Function.comp_def]
  rw [Batch.ofDocument, hbad, h.decode]
  rfl

private theorem HeldBy.ofDocument_eq_ok_iff (h : b.HeldBy d) : Batch.ofDocument d = .ok b ↔
    (∀ r ∈ b.items, r.root.isObject = true) ∧ b.functionConfig ≠ some ⟨.null⟩ := by
  have hall : (∀ r ∈ b.items, r.root.isObject = true) ↔
      (b.items.findIdx? fun r => !r.root.isObject) = none := by
    simp [List.findIdx?_eq_none_iff]
  rw [h.ofDocument, ← present_eq_self_iff, hall]
  cases b.items.findIdx? fun r => !r.root.isObject with
  | some index => simp
  | none => simp

end Batch

/-- What is written of a document is read as this document. -/
def Yaml.ReadsBack (d : Document) : Prop := Yaml.read (Yaml.write d) = .ok d.sorted

instance (d : Document) : Decidable (Yaml.ReadsBack d) :=
  decidable_of_iff ((Yaml.read (Yaml.write d)).toOption = some d.sorted) (by
    rw [Yaml.ReadsBack]
    cases Yaml.read (Yaml.write d) <;> simp [Except.toOption])

/-- References, conditions and batches are decoded as they were encoded. From its text a batch is
read back exactly if its items are mappings and its configuration is not null. -/
theorem encoded_read_back :
    (∀ r : Ref, Ref.decode r.toDocument = .ok r ∧ Ref.decode r.toDocument.sorted = .ok r) ∧
    (∀ c : Condition, Condition.decode c.toDocument = .ok c ∧
      Condition.decode c.toDocument.sorted = .ok c) ∧
    ∀ b : Batch, (Batch.decode b.toDocument = .ok b ↔ b.functionConfig ≠ some ⟨.null⟩) ∧
      ((∀ r ∈ b.items, r.root.WellFormed) → (∀ r ∈ b.functionConfig, r.root.WellFormed) →
        (Batch.decode b.toDocument.sorted = .ok b ↔ b.functionConfig ≠ some ⟨.null⟩) ∧
        (Yaml.ReadsBack b.toDocument → (Batch.ofYaml b.toYaml = .ok b ↔
          (∀ r ∈ b.items, r.root.isObject = true) ∧ b.functionConfig ≠ some ⟨.null⟩))) := by
  refine ⟨fun r => ?refs, fun c => ?conditions, fun b => ⟨?order, fun hi hc => ?sorted⟩⟩
  case refs =>
    rw [Document.sorted_of_wellFormed _ r.wellFormed_toDocument]
    exact ⟨r.decode_toDocument, r.decode_toDocument⟩
  case conditions =>
    rw [Document.sorted_of_wellFormed _ (Manifest.wellFormed_toDocument c)]
    exact ⟨Manifest.decode_toDocument c, Manifest.decode_toDocument c⟩
  case order =>
    rw [b.heldBy_toDocument.decode, Except.ok.injEq, Batch.present_eq_self_iff]
  case sorted =>
    have hb := Batch.heldBy_sorted_toDocument hi hc
    refine ⟨?_, fun hread => ?_⟩
    · rw [hb.decode, Except.ok.injEq, Batch.present_eq_self_iff]
    · have htext : Batch.ofYaml b.toYaml = Batch.ofDocument b.toDocument.sorted := by
        rw [Batch.ofYaml, Batch.toYaml, hread]
        rfl
      rw [htext, hb.ofDocument_eq_ok_iff]

def noticedBatch : Batch :=
  ⟨"v1", "List", [⟨.object [("kind", .string "A")]⟩], some ⟨.object []⟩,
    [⟨"", .error, some ⟨⟨"v1", "A"⟩, "", some ""⟩⟩]⟩

theorem encoded_read_back_noticed :
    (∀ r ∈ noticedBatch.items, r.root.WellFormed) ∧
    (∀ r ∈ noticedBatch.functionConfig, r.root.WellFormed) ∧
    Yaml.ReadsBack noticedBatch.toDocument ∧
    Batch.decode noticedBatch.toDocument.sorted = .ok noticedBatch ∧
    Batch.ofYaml noticedBatch.toYaml = .ok noticedBatch := by
  have hi : ∀ r ∈ noticedBatch.items, r.root.WellFormed := by decide +kernel
  have hc : ∀ r ∈ noticedBatch.functionConfig, r.root.WellFormed := by decide +kernel
  have hread : Yaml.ReadsBack noticedBatch.toDocument := by decide +kernel
  obtain ⟨hdecode, hback⟩ := (encoded_read_back.2.2 noticedBatch).2 hi hc
  have hnull : noticedBatch.functionConfig ≠ some ⟨.null⟩ := by decide
  exact ⟨hi, hc, hread, hdecode.2 hnull, (hback hread).2 ⟨by decide, hnull⟩⟩

end Reconciler
