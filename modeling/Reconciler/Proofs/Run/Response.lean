import Reconciler.Proofs.Run.Generation
import Reconciler.Proofs.Run.Verdict

/-! The generation stage of any controller as a trace. Its effects can be read off the state in which
it sets out and the answers of the callback: each governed resource has its own, whatever became of
those before it. -/
namespace Reconciler

open Inventory (Action Key Plan Readiness Sound)

variable {s s' s'' t : Run} {k : Key} {r : Ref} {g o x : Resource} {old? governed : Option Resource}
  {resources : List Resource} {readiness : Readiness} {c : Controller} {failed : List Ref}
  {generate : Option Resource → List Resource → Except Failure (Option Resource)} {e : Effect}

/-- What happens silently at the key before an effect does not count. -/
theorem Effect.Holds.of_idle (h : (Effect.idle e.key).Holds s s') (h' : e.Holds s' s'') :
    e.Holds s s'' :=
  h.join h' rfl (.inl rfl) (.inl rfl)

namespace Inventory

variable {inv : Inventory} {entry : Entry}

private theorem schedule_plan_key (h : inv.find? k = some entry) :
    (inv.plan fun k' => k' == k).schedule = (entryPlan k entry).schedule := by
  have hempty (p : Plan) : Plan.empty ++ p = p := rfl
  rw [plan, SortedMap.filter_key h, List.foldl_cons, List.foldl_nil, hempty]

/-- What brings a rendered resource to the package: it is created, or updated if it is outdated. -/
def delivery (r : Ref) (old? : Option Resource) (o : Resource) : List Action :=
  match old? with
  | none => [.write false ⟨.governed r, none, o⟩]
  | some g => if g.isOutdated o then [.write true ⟨.governed r, none, o⟩] else []

theorem delivery_eq (r : Ref) (old? : Option Resource) (o : Resource) : delivery r old? o =
    if old?.all (fun g => g.isOutdated o) then [.write old?.isSome ⟨.governed r, none, o⟩] else [] := by
  cases old? <;> rfl

private theorem schedule_entryPlan_governed (x : Option Condition) (old? : Option Resource)
    (o : Resource) :
    (entryPlan (.governed r) ⟨x, old?, some o, none⟩).schedule = delivery r old? o := by
  rw [entryPlan, resourcePlan, if_neg (by simp [Key.governed])]
  cases old? with
  | none => rfl
  | some g =>
    have hchanged : isChanged .governed g o = .ok (g.isOutdated o) := by
      rw [isChanged, Resource.isOutdated]
      split
      · rename_i hf
        rw [hf, Bool.true_or]
      · rename_i hf
        rw [(Bool.not_eq_true _).mp hf, Bool.false_or]
    simp only [Key.governed, hchanged, delivery]
    cases g.isOutdated o <;> rfl

private theorem mem_delivery {a : Action} (ha : a ∈ delivery r old? o) :
    ∃ isUpdate, a = .write isUpdate ⟨.governed r, none, o⟩ := by
  rw [delivery_eq] at ha
  split at ha
  · exact ⟨_, List.mem_singleton.1 ha⟩
  · cases ha

private theorem Sound.exchange_governed (h : Sound c inv) (r : Ref) :
    (inv.entryAt (.governed r)).exchange = none := by
  cases hf : inv.find? (.governed r) with
  | none =>
    rw [entryAt, hf]
    rfl
  | some entry =>
    rw [entryAt_of_find? hf]
    exact (h _ entry hf).2.1

end Inventory

namespace Run

def acceptance (r : Ref) (old? : Option Resource) (o : Resource) : List Effect :=
  ⟨.governed r, none, some (some (done (.governed r))), false⟩ ::
    (Inventory.delivery r old? o).map Action.effect

def response (c : Controller)
    (generate : Option Resource → List Resource → Except Failure (Option Resource)) (r : Ref)
    (governed : Option Resource) (resources : List Resource) : List Effect :=
  match generate governed resources with
  | .error _ => [.reject (.governed r)]
  | .ok none => [.reject (.governed r)]
  | .ok (some answer) =>
    match rendered c r answer with
    | .error _ => [.reject (.governed r)]
    | .ok o => acceptance r governed o

/-- The effects of handling a governed resource with its readiness, if `failed` are those with a
failure. -/
def attempt (c : Controller) (failed : List Ref)
    (generate : Option Resource → List Resource → Except Failure (Option Resource)) (r : Ref)
    (readiness : Readiness) : List Effect :=
  match readiness.resource with
  | none => []
  | some g =>
    if r ∈ failed then []
    else if readiness.ready then response c generate r (some g) readiness.resources
    else if c.owned.isEmpty then [Inventory.retireEffect (.governed r) g]
    else []

def synthesis (s : Run)
    (generate : Option Resource → List Resource → Except Failure (Option Resource)) : List Effect :=
  if s.manifest.name.isEmpty then [.reject (.governed s.controller.governed.toRef)]
  else response s.controller generate (s.controller.governed.named s.manifest.name) none []

def retirements (entries : List (Ref × Readiness)) : List Effect :=
  entries.flatMap fun e => e.2.resource.toList.map (Inventory.retireEffect (.governed e.1))

def orphanDrops (entries : List (Ref × Readiness)) : List Effect :=
  entries.flatMap fun e =>
    if e.2.resource.isNone then [⟨.governed e.1, none, some none, false⟩] else []

theorem mem_retirements {entries : List (Ref × Readiness)} : e ∈ retirements entries ↔
    ∃ entry ∈ entries, ∃ g, entry.2.resource = some g ∧
      e = Inventory.retireEffect (.governed entry.1) g := by
  simp [retirements, eq_comm]

theorem mem_orphanDrops {entries : List (Ref × Readiness)} : e ∈ orphanDrops entries ↔
    ∃ entry ∈ entries, entry.2.resource = none ∧
      e = ⟨.governed entry.1, none, some none, false⟩ := by
  simp only [orphanDrops, List.mem_flatMap]
  refine exists_congr fun entry => and_congr_right fun _ => ?_
  cases entry.2.resource <;> simp

def responses (s : Run) : List Effect :=
  let entries := s.inventory.readyMap.entries
  if s.inventory.isReady then
    orphanDrops entries ++
    match s.controller.generate with
    | none => []
    | some generate =>
      (if entries.all fun e => e.2.resource.isNone then s.synthesis generate else []) ++
      entries.flatMap fun e => attempt s.controller s.failed generate e.1 e.2
  else if s.controller.owned.isEmpty then retirements entries
  else []

section Members

theorem response_cases (he : e ∈ response c generate r governed resources) :
    e = .reject (.governed r) ∨ ∃ answer o, generate governed resources = .ok (some answer) ∧
      rendered c r answer = .ok o ∧
        (e = ⟨.governed r, none, some (some (done (.governed r))), false⟩ ∨
          ∃ isUpdate, e = Inventory.writeEffect isUpdate ⟨.governed r, none, o⟩) := by
  rw [response] at he
  split at he
  · exact .inl (List.mem_singleton.1 he)
  · exact .inl (List.mem_singleton.1 he)
  · rename_i answer hanswer
    split at he
    · exact .inl (List.mem_singleton.1 he)
    · rename_i o ho
      refine .inr ⟨answer, o, hanswer, ho, (List.mem_cons.1 he).imp_right fun he => ?_⟩
      obtain ⟨a, ha, rfl⟩ := List.mem_map.1 he
      obtain ⟨isUpdate, rfl⟩ := Inventory.mem_delivery ha
      exact ⟨isUpdate, rfl⟩

theorem key_of_response (he : e ∈ response c generate r governed resources) :
    e.key = .governed r := by
  rcases response_cases he with rfl | ⟨answer, o, -, -, rfl | ⟨isUpdate, rfl⟩⟩
  · rfl
  · rfl
  · exact Inventory.key_writeEffect _ _

private theorem condition_of_response (he : e ∈ response c generate r governed resources) :
    e.condition ≠ some none := by
  rcases response_cases he with rfl | ⟨answer, o, -, -, rfl | ⟨isUpdate, rfl⟩⟩
  · simp [Effect.reject]
  · simp
  · exact Inventory.writeEffect_condition_ne _ _

theorem key_of_attempt (he : e ∈ attempt c failed generate r readiness) : e.key = .governed r := by
  rw [attempt] at he
  split at he
  · cases he
  · split at he
    · cases he
    · split at he
      · exact key_of_response he
      · split at he
        · cases List.mem_singleton.1 he
          exact Inventory.key_retireEffect _ _
        · cases he

end Members

section Steps

/-- A step that changes at most calls, notices and report is silent. -/
theorem holds_quiet (k : Key) (hc : s'.controller = s.controller)
    (hm : s'.manifestIndex = s.manifestIndex) (hman : s'.manifest = s.manifest)
    (hi : s'.batch.items = s.batch.items)
    (ho : s'.report.objectsWritten = s.report.objectsWritten)
    (hinv : s'.inventory = s.inventory) (hf : s'.failed = s.failed) :
    (Effect.idle k).Holds s s' where
  controller := hc
  manifestIndex := hm
  source := congrArg Manifest.source hman
  items := hi
  objectsWritten := ho
  conditions := congrArg Manifest.conditions hman
  typeName := by simp [Effect.idle]
  failed := by simp [Effect.idle, hf]
  elsewhere _ _ := by rw [hinv]
  existing := by rw [hinv]; rfl
  condition := by rw [hinv]; rfl

def accepted (s : Run) (r : Ref) (o : Resource) : Run :=
  { s with
    report := { s.report with generated := s.report.generated + 1 }
    inventory := s.inventory.addDesired (.governed r) none o
    }.writeCondition (.governed r) (done (.governed r))

private theorem holds_accepted (s : Run) (r : Ref) (o : Resource) :
    (⟨.governed r, none, some (some (done (.governed r))), false⟩ : Effect).Holds s
      (s.accepted r o) := by
  refine Effect.Holds.of_idle ?_ (holds_writeCondition rfl _)
  exact {
    controller := rfl
    manifestIndex := rfl
    source := rfl
    items := rfl
    objectsWritten := rfl
    conditions := rfl
    typeName := by simp [Effect.idle]
    failed := by simp [Effect.idle]
    elsewhere := fun _ hk => Inventory.find?_update_of_ne hk
    existing := Inventory.existing?_addDesired
    condition := Inventory.condition?_addDesired }

private theorem trace_accept (hx : (t.inventory.entryAt (.governed r)).exchange = none)
    (o : Resource) :
    Trace (acceptance r (t.inventory.existing? (.governed r)) o) t (t.accept r o) := by
  have hentry : (t.accepted r o).inventory.find? (.governed r) =
      some ⟨some (done (.governed r)), t.inventory.existing? (.governed r), some o, none⟩ := by
    change (Inventory.setCondition _ _ _).find? _ = _
    rw [Inventory.setCondition, Inventory.find?_update_self, Inventory.addDesired,
      Inventory.entryAt_of_find? Inventory.find?_update_self, Inventory.existing?,
      Inventory.Entry.declare, hx]
    rfl
  have hcommit := trace_commit (t.accepted r o)
    ((t.accepted r o).inventory.plan fun k' => k' == .governed r)
  rw [Inventory.schedule_plan_key hentry, Inventory.schedule_entryPlan_governed] at hcommit
  exact .cons (holds_accepted t r o) hcommit

private theorem trace_generateOne (hx : (t.inventory.entryAt (.governed r)).exchange = none)
    (he : t.inventory.existing? (.governed r) = governed) (resources : List Resource) :
    Trace (response t.controller generate r governed resources) t
      (t.generateOne generate r governed resources) := by
  let logged := t.logCall (.generate governed resources)
  have hidle : (Effect.idle (.governed r)).Holds t logged :=
    holds_quiet _ rfl rfl rfl rfl rfl rfl rfl
  rw [response, generateOne]
  cases generate governed resources with
  | error failure => exact .cons (hidle.of_idle (holds_reject rfl _)) (.nil _)
  | ok answer? =>
    cases answer? with
    | none => exact .cons (hidle.of_idle (holds_reject rfl _)) (.nil _)
    | some answer =>
      simp only [show (t.logCall _).controller = t.controller from rfl]
      cases rendered t.controller r answer with
      | error fault => exact .cons (hidle.of_idle (holds_reject rfl _)) (.nil _)
      | ok o =>
        have haccept := trace_accept (t := logged) hx o
        rw [show logged.inventory.existing? (.governed r) = governed from he] at haccept
        cases haccept with
        | cons head tail => exact .cons (hidle.of_idle head) tail

private theorem synthesis_congr (hc : t.controller = s.controller)
    (hsource : t.manifest.source = s.manifest.source) : t.synthesis generate = s.synthesis generate := by
  rw [synthesis, synthesis, hc, Manifest.name, Manifest.name, hsource]

private theorem trace_generateSynthetic
    (generate : Option Resource → List Resource → Except Failure (Option Resource))
    (hx : ∀ r, (t.inventory.entryAt (.governed r)).exchange = none)
    (he : ∀ r, t.inventory.existing? (.governed r) = none) :
    Trace (t.synthesis generate) t (t.generateSynthetic generate) := by
  rw [synthesis, generateSynthetic]
  split
  · exact .cons (holds_reject rfl _) (.nil _)
  · exact trace_generateOne (hx _) (he _) []

private theorem trace_generateReady (hr : ∀ g, readiness.resource = some g →
      (r ∈ t.failed ↔ r ∈ failed) ∧ (t.inventory.entryAt (.governed r)).exchange = none ∧
        t.inventory.existing? (.governed r) = some g) :
    Trace (attempt t.controller failed generate r readiness) t
      (t.generateReady generate r readiness) := by
  rw [attempt, generateReady]
  cases hres : readiness.resource with
  | none => exact .nil t
  | some g =>
    obtain ⟨hf, hx, he⟩ := hr g hres
    simp only [hf]
    split
    · exact .nil t
    · by_cases hready : readiness.ready = true
      · simp only [hready, Bool.not_true, Bool.false_eq_true, if_false, if_true]
        exact trace_generateOne hx he _
      · simp only [hready, Bool.not_false, if_true, Bool.false_eq_true, if_false]
        split
        · exact .cons (holds_softDelete _ _ _) (.nil _)
        · exact .nil t

private theorem trace_generateEach (entries : List (Ref × Readiness))
    (hn : (entries.map (·.1)).Nodup) (hc : t.controller = c)
    (hr : ∀ e ∈ entries, ∀ g, e.2.resource = some g → (e.1 ∈ t.failed ↔ e.1 ∈ failed) ∧
      (t.inventory.entryAt (.governed e.1)).exchange = none ∧
        t.inventory.existing? (.governed e.1) = some g) :
    Trace (entries.flatMap fun e => attempt c failed generate e.1 e.2) t
      (entries.foldl (fun t e => t.generateReady generate e.1 e.2) t) := by
  induction entries generalizing t with
  | nil => exact .nil t
  | cons e entries ih =>
    rw [List.map_cons, List.nodup_cons] at hn
    have hhead : Trace (attempt c failed generate e.1 e.2) t (t.generateReady generate e.1 e.2) :=
      hc ▸ trace_generateReady (hr e List.mem_cons_self)
    rw [List.flatMap_cons, List.foldl_cons]
    refine hhead.append (ih hn.2 (hhead.controller.trans hc) fun e' he' g hg => ?_)
    have hne : e'.1 ≠ e.1 := fun heq => hn.1 (heq ▸ List.mem_map_of_mem he')
    obtain ⟨hf, hentry⟩ := hr e' (List.mem_cons_of_mem _ he') g hg
    constructor
    · rw [hhead.mem_failed, hf]
      refine ⟨fun h => h.resolve_right ?_, .inl⟩
      rintro ⟨e₁, he₁, -, heq⟩
      rw [key_of_attempt he₁] at heq
      exact hne heq
    · have hkeep : (t.generateReady generate e.1 e.2).inventory.find? (.governed e'.1) =
          t.inventory.find? (.governed e'.1) := by
        apply hhead.find?_of_untouched
        intro e₁ he₁ hk
        rw [key_of_attempt he₁] at hk
        exact hne (congrArg Key.target hk).symm
      rw [Inventory.existing?, Inventory.entryAt, hkeep]
      exact hentry

private theorem trace_retireGoverned (s : Run) (entries : List (Ref × Readiness)) :
    Trace (if s.controller.owned.isEmpty then retirements entries else []) s
      (s.retireGoverned entries) := by
  rw [retireGoverned]
  split
  · rename_i ho
    rw [retirements]
    clear ho
    induction entries generalizing s with
    | nil => exact .nil s
    | cons e entries ih =>
      rw [List.flatMap_cons, List.foldl_cons]
      refine Trace.append ?_ (ih _)
      cases e.2.resource with
      | none => exact .nil s
      | some g => exact .cons (holds_softDelete _ _ _) (.nil _)
  · exact .nil s

theorem trace_dropOrphanConditions (s : Run) (entries : List (Ref × Readiness)) :
    Trace (orphanDrops entries) s (s.dropOrphanConditions entries) := by
  rw [dropOrphanConditions, orphanDrops]
  induction entries generalizing s with
  | nil => exact .nil s
  | cons e entries ih =>
    rw [List.flatMap_cons, List.foldl_cons]
    refine Trace.append ?_ (ih _)
    split
    · exact .cons (holds_deleteCondition _ _) (.nil _)
    · exact .nil s

private theorem sound_dropOrphanConditions (entries : List (Ref × Readiness))
    (hs : Sound c t.inventory) : Sound c (t.dropOrphanConditions entries).inventory := by
  rw [dropOrphanConditions]
  induction entries generalizing t with
  | nil => exact hs
  | cons e entries ih =>
    rw [List.foldl_cons]
    apply ih
    split
    · exact hs.clearCondition _
    · exact hs

/-- Readiness is listed with what is recorded as the governed resource. -/
theorem existing?_of_readyMap (hs : Sound c s.inventory) {e : Ref × Readiness}
    (he : e ∈ s.inventory.readyMap.entries) :
    s.inventory.existing? (.governed e.1) = e.2.resource := by
  obtain ⟨entry, hfind, hre⟩ := (Inventory.mem_readyMap hs).1 he
  rw [Inventory.existing?, Inventory.entryAt_of_find? hfind, hre]
  rfl

/-- What is recorded as a governed resource has its readiness listed. -/
theorem exists_readiness (hs : Sound c s.inventory)
    (hg : s.inventory.existing? (.governed r) = some g) :
    ∃ readiness, (r, readiness) ∈ s.inventory.readyMap.entries ∧ readiness.resource = some g := by
  obtain ⟨entry, hentry⟩ := Option.isSome_iff_exists.1
    (hs.isSome_find?_iff.2 (.inr (.inl (Option.ne_none_iff_exists'.2 ⟨g, hg⟩))))
  have hm := (Inventory.mem_readyMap hs).2 ⟨entry, hentry, rfl⟩
  exact ⟨_, hm, (existing?_of_readyMap hs hm).symm.trans hg⟩

theorem existing?_of_all_none (hs : Sound c s.inventory)
    (hall : ∀ e ∈ s.inventory.readyMap.entries, e.2.resource = none) :
    s.inventory.existing? (.governed r) = none := by
  rw [Option.eq_none_iff_forall_ne_some]
  intro g hg
  obtain ⟨readiness, hm, hresource⟩ := exists_readiness hs hg
  cases (hall _ hm).symm.trans hresource

/-- Where the responses come from. -/
theorem mem_responses (he : e ∈ s.responses) :
    (∃ entry ∈ s.inventory.readyMap.entries, entry.2.resource = none ∧
      e = ⟨.governed entry.1, none, some none, false⟩) ∨
    (∃ generate, s.controller.generate = some generate ∧
      (∀ entry ∈ s.inventory.readyMap.entries, entry.2.resource = none) ∧
      e ∈ s.synthesis generate) ∨
    (∃ generate, s.controller.generate = some generate ∧
      ∃ entry ∈ s.inventory.readyMap.entries,
        e ∈ attempt s.controller s.failed generate entry.1 entry.2) ∨
    s.controller.owned.isEmpty = true ∧ ∃ entry ∈ s.inventory.readyMap.entries, ∃ g,
      entry.2.resource = some g ∧ e = Inventory.retireEffect (.governed entry.1) g := by
  simp only [responses] at he
  by_cases hready : s.inventory.isReady = true
  · rw [if_pos hready] at he
    rcases List.mem_append.1 he with he | he
    · exact .inl (mem_orphanDrops.1 he)
    · cases hgen : s.controller.generate with
      | none =>
        rw [hgen] at he
        cases he
      | some generate =>
        rw [hgen] at he
        rcases List.mem_append.1 he with he | he
        · split at he
          · rename_i hall
            refine .inr (.inl ⟨generate, rfl, fun entry hm => ?_, he⟩)
            exact Option.isNone_iff_eq_none.1 (List.all_eq_true.1 hall entry hm)
          · cases he
        · obtain ⟨entry, hm, he⟩ := List.mem_flatMap.1 he
          exact .inr (.inr (.inl ⟨generate, rfl, entry, hm, he⟩))
  · rw [if_neg hready] at he
    split at he
    · rename_i ho
      exact .inr (.inr (.inr ⟨ho, mem_retirements.1 he⟩))
    · cases he

/-- Responses work at keys of governed resources. Only where there is an entry a condition is
dropped. -/
theorem key_of_responses (hs : Sound s.controller s.inventory) (he : e ∈ s.responses) :
    ∃ r, e.key = .governed r ∧ s.controller.governs r = true ∧
      ((s.inventory.find? (.governed r)).isSome = true ∨ e.condition ≠ some none) := by
  have hlisted {entry : Ref × Readiness} (hm : entry ∈ s.inventory.readyMap.entries)
      (hk : e.key = .governed entry.1) : ∃ r, e.key = .governed r ∧
        s.controller.governs r = true ∧
          ((s.inventory.find? (.governed r)).isSome = true ∨ e.condition ≠ some none) := by
    obtain ⟨found, hf, -⟩ := (Inventory.mem_readyMap hs).1 hm
    exact ⟨entry.1, hk, (hs _ _ hf).1, .inl (by rw [hf]; rfl)⟩
  rcases mem_responses he with ⟨entry, hm, -, rfl⟩ | ⟨generate, -, -, he⟩ |
    ⟨generate, -, entry, hm, he⟩ | ⟨-, entry, hm, g, -, rfl⟩
  · exact hlisted hm rfl
  · rw [synthesis] at he
    split at he
    · cases List.mem_singleton.1 he
      exact ⟨_, rfl, beq_self_eq_true _, .inr (by simp [Effect.reject])⟩
    · exact ⟨_, key_of_response he, beq_self_eq_true _, .inr (condition_of_response he)⟩
  · exact hlisted hm (key_of_attempt he)
  · exact hlisted hm (Inventory.key_retireEffect _ _)

/-- Generation is the trace of the responses. The silent effects at both ends stand for notices and
report, at any key. -/
theorem trace_responses (hs : Sound s.controller s.inventory) (k : Key) :
    Trace (.idle k :: s.responses ++ [.idle k]) s s.generateAll := by
  have hfirst : (Effect.idle k).Holds s s.judged := holds_quiet _ rfl rfl rfl rfl rfl rfl rfl
  have hend (s : Run) (b : Batch) (hb : b.items = s.batch.items) :
      Trace [.idle k] s ({ s with batch := b }.atStage .generated) := by
    refine .cons ?_ (.nil _)
    exact holds_quiet _ rfl rfl rfl hb rfl rfl rfl
  by_cases hr : s.inventory.isReady = true
  · let dropped := s.judged.dropOrphanConditions s.inventory.readyMap.entries
    have hdrop : Trace _ s.judged dropped :=
      trace_dropOrphanConditions s.judged s.inventory.readyMap.entries
    have hsound : Sound s.controller dropped.inventory := sound_dropOrphanConditions _ hs
    have hfailed : dropped.failed = s.failed := (s.judged.dropOrphanConditions_frame _).1
    have hexisting (k : Key) : dropped.inventory.existing? k = s.inventory.existing? k := by
      refine hdrop.existing?_of_untouched fun e he _ => ?_
      obtain ⟨entry, -, -, rfl⟩ := mem_orphanDrops.1 he
      rfl
    rw [generateAll_of_ready hr, responses, if_pos hr]
    refine .cons hfirst ?_
    rw [List.append_eq, List.append_assoc]
    refine hdrop.append ?_
    cases hg : s.controller.generate with
    | none => exact hend _ _ rfl
    | some generate =>
      rw [List.append_assoc]
      by_cases hall : (s.inventory.readyMap.entries.all fun e => e.2.resource.isNone) = true
      · have hnone : ∀ e ∈ s.inventory.readyMap.entries, e.2.resource = none := fun e he =>
          Option.isNone_iff_eq_none.1 (List.all_eq_true.1 hall e he)
        have hsynthesis := trace_generateSynthetic (t := dropped) generate
          hsound.exchange_governed fun r => by rw [hexisting, existing?_of_all_none hs hnone]
        rw [synthesis_congr hdrop.controller hdrop.source] at hsynthesis
        simp only [if_pos hall]
        refine hsynthesis.append ((trace_generateEach _ s.inventory.readyMap.keys_nodup
          (hsynthesis.controller.trans hdrop.controller) fun e he g hg => ?_).append (hend _ _ rfl))
        rw [hnone e he] at hg
        cases hg
      · simp only [if_neg hall, List.nil_append]
        refine (trace_generateEach _ s.inventory.readyMap.keys_nodup hdrop.controller ?_).append
          (hend _ _ rfl)
        intro e he g hg
        refine ⟨by rw [hfailed], hsound.exchange_governed _, ?_⟩
        rw [hexisting, existing?_of_readyMap hs he, hg]
  · have hr : s.inventory.isReady = false := by simpa using hr
    rw [generateAll_of_not_ready hr, responses, if_neg (by simp [hr])]
    refine .cons hfirst ((trace_retireGoverned s.judged _).append (hend _ _ rfl))

/-- What works on an item or on a condition is not silent. -/
theorem mem_responses_of_touching (he : e ∈ .idle k :: s.responses ++ [.idle k])
    (h : e.item ≠ none ∨ e.condition ≠ none) : e ∈ s.responses := by
  refine (Effect.mem_between_idle.1 he).resolve_left ?_
  rintro rfl
  simp [Effect.idle] at h

/-- Entries that are not governed are left alone by generation. -/
theorem find?_generateAll (hs : Sound s.controller s.inventory) (hk : k.role ≠ .governed) :
    s.generateAll.inventory.find? k = s.inventory.find? k := by
  refine (trace_responses hs (.governed default)).find?_of_untouched fun e he hek => hk ?_
  rcases Effect.mem_between_idle.1 he with rfl | he
  · rw [← hek]
    rfl
  · obtain ⟨r, hkey, -⟩ := key_of_responses hs he
    rw [← hek, hkey]
    rfl

end Steps

end Run

end Reconciler
