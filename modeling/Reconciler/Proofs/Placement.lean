import Reconciler.Proofs.Batch

/-! Where a resource goes when it is written into a batch, and what becomes of the item that it meets
there. -/
namespace Reconciler.Batch

variable {old r : Resource}

/-- `new` is `r`, with the namespace of `old` if `r` has none. -/
structure Fills (old r new : Resource) : Prop where
  /-- Nothing is put in where `r` has a namespace, or `old` has none. -/
  value : match r.space, old.space with
    | none, some space => r.set ["metadata", "namespace"] (.string space) = .ok new
    | _, _ => new = r
  space : new.space = r.space.or old.space
  others : ∀ q, Document.Diverge ["metadata", "namespace"] q → new.get? q = r.get? q

/-- A resource takes the place of the first item of its identity, with the namespace of that item if
it has none, or else comes last. Writing it again changes nothing. -/
theorem write_placed (b : Batch) (hr : r.root.isObject = true)
    (hm : (r.get? ["metadata"]).all Document.isObject = true) :
    (((∀ item ∈ b.items, item.identity ≠ r.identity) ∧
        b.write r = ({ b with items := b.items ++ [r] }, true) ∧
        (b.write r).1.position? r.reference = some b.items.length) ∨
      ∃ before old after new item, b.items = before ++ old :: after ∧
        (∀ x ∈ before, x.identity ≠ r.identity) ∧ old.identity = r.identity ∧
        (b.write r).1 = { b with items := before ++ item :: after } ∧
        Fills old r new ∧ item.root.alike new.root = true ∧ (item = old ∨ item = new) ∧
        ((b.write r).2 = true ↔ item ≠ old) ∧
        ((b.write r).2 = true ↔ old.root.alike item.root = false) ∧
        (b.write r).1.position? r.reference = some before.length) ∧
    (b.write r).1.write r = ((b.write r).1, false) := by
  refine ⟨?_, write_write b r⟩
  rcases write_cases b r with ⟨hn, hw⟩ | ⟨before, old, after, hi, hb, hid, hw⟩
  · refine .inl ⟨hn, hw, ?_⟩
    rw [hw]
    -- nothing stands after the new item
    exact position?_of_split rfl hn rfl
  · right
    have hfills : Fills old r (keepSpace old r) := {
      value := keepSpace_eq hr hm old
      space := space_keepSpace_of_mapping hr hm old
      others := fun _ => get?_keepSpace old r }
    have hself : old.root.alike old.root = true := Document.alike_refl _
    by_cases ha : old.root.alike (keepSpace old r).root = true
    · rw [if_pos ha] at hw
      refine ⟨before, old, after, keepSpace old r, old, hi, hb, hid, ?_, hfills, ha, .inl rfl, ?_⟩
      · rw [hw, ← hi]
      · rw [hw]
        exact ⟨by simp, by simp [hself], position?_of_split hi hb hid⟩
    · rw [if_neg ha] at hw
      have hne : keepSpace old r ≠ old := by
        intro he
        rw [he] at ha
        exact ha hself
      refine ⟨before, old, after, keepSpace old r, keepSpace old r, hi, hb, hid, ?_, hfills,
        Document.alike_refl _, .inr rfl, ?_⟩
      · rw [hw]
      · rw [hw]
        exact ⟨by simpa using hne, by simpa using ha,
          position?_of_split rfl hb (identity_keepSpace old r)⟩

def configMap (setting : String) (space : Document) : Resource :=
  ⟨.object [("apiVersion", .string "v1"), ("data", .object [("setting", .string setting)]),
    ("kind", .string "ConfigMap"),
    ("metadata", .object [("name", .string "a"), ("namespace", space)])]⟩

/-- The first of two items with one identity is replaced and keeps its namespace, which stands in for one
that is not a text. -/
theorem write_placed_repeated :
    let secret : Resource := .minimal ⟨"v1", "Secret"⟩ "a"
    let b : Batch := .ofItems
      [secret, configMap "old" (.string "north"), configMap "old" (.string "south")]
    let r := configMap "new" (.bool true)
    r.root.isObject = true ∧ (r.get? ["metadata"]).all Document.isObject = true ∧
      (b.write r).1.items =
        [secret, configMap "new" (.string "north"), configMap "old" (.string "south")] ∧
      (b.write r).2 = true ∧ (b.write r).1.position? r.reference = some 1 ∧
      (b.write r).1.write r = ((b.write r).1, false) := by
  intro secret b r
  have hr : r.root.isObject = true := rfl
  have hm : (r.get? ["metadata"]).all Document.isObject = true := by decide +kernel
  exact ⟨hr, hm, by decide +kernel, by decide +kernel, by decide +kernel, (write_placed b hr hm).2⟩

end Reconciler.Batch
