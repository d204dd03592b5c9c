import EngineeringIntelligence.CompanyBrain.BlastRadius
import EngineeringIntelligence.CompanyBrain.Integrity
import EngineeringIntelligence.CompanyBrain.Withheld
import EngineeringIntelligence.PrGuardian.CompanyContext

namespace EngineeringIntelligence.PrGuardian.Company

open CompanyBrain Framework Intelligence Topology

/-! The blast radius that is reported, and the one of the graph that the risk is computed on. -/

/-! ### Graphs over labels -/

/-- Within some services, one depends on another. -/
def Within (services : List String) (dep : String → String → Prop) (x y : String) : Prop :=
  x ∈ services ∧ y ∈ services ∧ dep x y

/-- The nodes of a graph are some services under labels that tell them apart. -/
structure Labelled (graph : ServiceGraph) (services : List String) (label : String → String)
    (dep : String → String → Prop) : Prop where
  dependsOn : ∀ a b, graph.DependsOn a b ↔ ∃ x y, Within services dep x y ∧ label x = a ∧ label y = b
  injective : ∀ x ∈ services, ∀ y ∈ services, label x = label y → x = y

/-- What is impacted over labels is what is impacted within the services. -/
theorem Labelled.impacted_iff {graph : ServiceGraph} {services changed labels : List String}
    {label : String → String} {dep : String → String → Prop} (h : Labelled graph services label dep)
    (hchanged : ∀ c ∈ changed, c ∈ services) (hlabels : ∀ t, t ∈ labels ↔ ∃ c ∈ changed, label c = t) {t : String} :
    graph.Impacted labels t ↔
      ∃ x ∈ services, label x = t ∧ ∃ c ∈ changed, Relation.ReflTransGen (Within services dep) x c := by
  constructor
  · rintro ⟨l, hl, hpath⟩
    induction hpath using Relation.ReflTransGen.head_induction_on with
    | refl =>
      obtain ⟨c, hc, rfl⟩ := (hlabels l).mp hl
      exact ⟨c, hchanged c hc, rfl, c, hc, .refl⟩
    | head hstep _ ih =>
      obtain ⟨x, y, hxy, rfl, hy⟩ := (h.dependsOn _ _).mp hstep
      obtain ⟨z, hz, hlabel, c, hc, hrest⟩ := ih
      obtain rfl := h.injective z hz y hxy.2.1 (hlabel.trans hy.symm)
      exact ⟨x, hxy.1, rfl, c, hc, .head hxy hrest⟩
  · rintro ⟨x, -, rfl, c, hc, hpath⟩
    refine ⟨label c, (hlabels _).mpr ⟨c, hc, rfl⟩, ?_⟩
    exact hpath.lift label fun x y hxy => (h.dependsOn _ _).mpr ⟨x, y, hxy, rfl, rfl⟩

/-- Nodes with names of their own all stay in a graph they are added to. -/
theorem dependsOn_foldl_add {nodes : List ServiceNode} (h : (nodes.map (·.name)).Nodup) {a b : String} :
    (nodes.foldl ServiceGraph.add ServiceGraph.empty).DependsOn a b ↔
      ∃ node ∈ nodes, node.name = a ∧ b ∈ node.dependencies := by
  have hnodes : (nodes.foldl ServiceGraph.add ServiceGraph.empty).nodes = nodes.foldl Table.put Table.empty := by
    have hfold : ∀ (graph : ServiceGraph) (ns : List ServiceNode),
        (ns.foldl ServiceGraph.add graph).nodes = ns.foldl Table.put graph.nodes := by
      intro graph ns
      induction ns generalizing graph with
      | nil => rfl
      | cons n ns ih => exact ih (graph.add n)
    exact hfold _ _
  have hrows : (nodes.foldl ServiceGraph.add ServiceGraph.empty).nodes.rows = nodes := by
    rw [hnodes, Table.rows_foldl_put (by simpa [Table.empty] using h)]
    rfl
  rw [ServiceGraph.DependsOn, hrows]

/-- Distinct service entities have distinct labels. -/
def DistinctServiceLabels (entities : EntityDict) : Prop :=
  ∀ a ∈ entities.rows, ∀ b ∈ entities.rows, a.kind = .service → b.kind = .service → a.label = b.label → a = b

/-- The label of an entity. -/
def labelIn (entities : EntityDict) (id : String) : String := ((Table.get entities id).map (·.label)).getD ""

theorem DistinctServiceLabels.injective {entities : EntityDict} (h : DistinctServiceLabels entities) {x y : String}
    (hx : entities.kindOf x = some .service) (hy : entities.kindOf y = some .service)
    (hlabel : labelIn entities x = labelIn entities y) : x = y := by
  obtain ⟨a, ha, hakind⟩ := kindOf_eq_some.mp hx
  obtain ⟨b, hb, hbkind⟩ := kindOf_eq_some.mp hy
  simp only [labelIn, ha, hb, Option.map_some, Option.getD_some] at hlabel
  have hsame : a = b := h a (Table.mem_of_get ha) b (Table.mem_of_get hb) hakind hbkind hlabel
  rw [← Table.key_of_get ha, ← Table.key_of_get hb, hsame]

theorem get_map_label {entities : EntityDict} {id : String} {kind : EntityKind}
    (h : entities.kindOf id = some kind) :
    (Table.get entities id).map (·.label) = some (labelIn entities id) := by
  obtain ⟨e, he, -⟩ := kindOf_eq_some.mp h
  simp [labelIn, he]

/-- The labels of some services, each of them there. -/
theorem mem_filterMap_label {entities : EntityDict} {ids : List String}
    (h : ∀ id ∈ ids, entities.kindOf id = some .service) {t : String} :
    t ∈ ids.filterMap (fun id => (Table.get entities id).map (·.label)) ↔ ∃ id ∈ ids, labelIn entities id = t := by
  rw [List.mem_filterMap]
  constructor
  · rintro ⟨id, hid, hlabel⟩
    rw [get_map_label (h id hid), Option.some.injEq] at hlabel
    exact ⟨id, hid, hlabel⟩
  · rintro ⟨id, hid, rfl⟩
    exact ⟨id, hid, get_map_label (h id hid)⟩

/-! ### The world-model adapter -/

section
variable {model : WorldModel} {query : ChangeQuery} {entities : EntityDict} {evidence : EvidenceDict}
  {relationships : List BrainRelationship} {now : Int} {context : QualifiedWorldModelContext}

/-- The entities of a context are those of the store that it is about. -/
theorem get_contextEntities (h : Assembled model query entities evidence relationships now context) {id : String}
    {e : BrainEntity} : Table.get (contextEntities context) id = some e ↔
      id ∈ context.scope ∧ Table.get entities id = some e := by
  have hentities : context.entities.map (·.entity) = context.scope.filterMap (Table.get entities) := by
    rw [h.described, List.map_filterMap]
    congr 1
    funext id
    rw [Option.map_map]
    exact (congrArg (Option.map · (Table.get entities id)) (funext fun e => qualifyEntity_entity e _)).trans
      Option.map_id'
  have hkeys : ((context.scope.filterMap (Table.get entities)).map BrainEntity.entityId).Nodup := by
    have hsub : ∀ ids : List String,
        ((ids.filterMap (Table.get entities)).map BrainEntity.entityId).Sublist ids := by
      intro ids
      induction ids with
      | nil => exact List.Sublist.refl _
      | cons id ids ih =>
        cases hget : Table.get entities id with
        | none => rw [List.filterMap_cons_none hget]; exact ih.cons _
        | some e =>
          rw [List.filterMap_cons_some hget, List.map_cons, Table.key_of_get hget]
          exact ih.cons_cons _
    exact (hsub _).nodup (sortedSet_nodup _)
  rw [contextEntities, hentities, get_dictOf hkeys, List.mem_filterMap]
  constructor
  · rintro ⟨⟨x, hx, hget⟩, rfl⟩
    rw [Table.key_of_get hget]
    exact ⟨hx, hget⟩
  · rintro ⟨hid, hget⟩
    exact ⟨⟨id, hid, hget⟩, Table.key_of_get hget⟩

theorem kindOf_contextEntities (h : Assembled model query entities evidence relationships now context) {id : String}
    {kind : EntityKind} : (contextEntities context).kindOf id = some kind ↔
      id ∈ context.scope ∧ entities.kindOf id = some kind := by
  simp only [kindOf_eq_some, get_contextEntities h, and_assoc, exists_and_left]

theorem kindOf_changed (h : Assembled model query entities evidence relationships now context) :
    ∀ c ∈ context.changedServices, entities.kindOf c = some .service := by
  intro c hc
  rw [h.changedServices, List.mem_filter, decide_eq_true_eq] at hc
  exact (mem_repositoryServices.mp hc.2).2

theorem changed_subset_radius (h : Assembled model query entities evidence relationships now context) :
    context.changedServices ⊆ context.blastRadius := by
  intro c hc
  rw [h.blastRadius]
  exact mem_blastRadius.mpr ⟨c, hc, .refl⟩

theorem kindOf_radius (h : Assembled model query entities evidence relationships now context) :
    ∀ x ∈ context.blastRadius, (contextEntities context).kindOf x = some .service := by
  intro x hx
  have hscope : x ∈ context.scope := by
    rw [QualifiedWorldModelContext.scope, mem_sortedSet]
    simp [hx]
  refine (kindOf_contextEntities h).mpr ⟨hscope, ?_⟩
  rw [h.blastRadius] at hx
  exact kindOf_blastRadius (kindOf_changed h) hx

/-- No service of the blast radius is left out of the graph. -/
theorem mem_graphServices (h : Assembled model query entities evidence relationships now context) {x : String} :
    x ∈ graphServices context ↔ x ∈ context.blastRadius := by
  rw [graphServices, List.mem_filter, decide_eq_true_eq, mem_sortedSet, List.mem_append]
  constructor
  · rintro ⟨hx | hx, -⟩
    · exact changed_subset_radius h hx
    · exact hx
  · intro hx
    exact ⟨.inr hx, kindOf_radius h x hx⟩

/-- Among services of the graph, the dependencies are the usable ones. -/
theorem mem_dependencyIds (h : Assembled model query entities evidence relationships now context) {x y : String}
    (hx : x ∈ context.blastRadius) : y ∈ dependencyIds context x ↔ y ∈ context.blastRadius ∧
      usableAt (settled model query entities evidence relationships now) ⟨x, .dependsOn, y⟩ := by
  have hscope : x ∈ context.scope := by
    rw [QualifiedWorldModelContext.scope, mem_sortedSet]
    simp [hx]
  simp only [dependencyIds, mem_sortedSet, List.mem_map, List.mem_filter, Bool.and_eq_true, decide_eq_true_eq,
    h.relevant, mem_graphServices h, usableAt]
  constructor
  · rintro ⟨item, ⟨⟨hitem, -⟩, ⟨⟨husable, hkind⟩, rfl⟩, hy⟩, rfl⟩
    exact ⟨hy, item, hitem, by rw [RelationshipQualification.key, BrainRelationship.key, hkind], husable⟩
  · rintro ⟨hy, item, hitem, hkey, husable⟩
    obtain ⟨hsource, hkind, htarget⟩ := EdgeKey.mk.inj hkey
    refine ⟨item, ⟨⟨hitem, ?_⟩, ⟨⟨husable, hkind⟩, hsource⟩, by rwa [htarget]⟩, htarget⟩
    rw [RelationshipQualification.touches, hsource]
    simp [hscope]

variable (int : String → Option Int)

/-- The graph of a context is its blast radius with the usable dependencies, under labels. -/
theorem labelled_contextGraph (h : Assembled model query entities evidence relationships now context)
    (hdistinct : DistinctServiceLabels entities) :
    Labelled (contextGraph int context) context.blastRadius (labelIn (contextEntities context)) fun x y =>
      usableAt (settled model query entities evidence relationships now) ⟨x, .dependsOn, y⟩ := by
  have hinjective : ∀ x ∈ context.blastRadius, ∀ y ∈ context.blastRadius,
      labelIn (contextEntities context) x = labelIn (contextEntities context) y → x = y := by
    intro x hx y hy hlabel
    refine DistinctServiceLabels.injective (fun a ha b hb => ?_) (kindOf_radius h x hx) (kindOf_radius h y hy) hlabel
    exact hdistinct a (Table.mem_of_get ((get_contextEntities h).mp (Table.get_of_mem ha)).2) b
      (Table.mem_of_get ((get_contextEntities h).mp (Table.get_of_mem hb)).2)
  have hnode : ∀ x ∈ graphServices context, ∃ node, contextNode int context x = some node ∧
      node.name = labelIn (contextEntities context) x ∧ ∀ t, t ∈ node.dependencies ↔
        ∃ y ∈ dependencyIds context x, labelIn (contextEntities context) y = t := by
    intro x hx
    have hradius := (mem_graphServices h).mp hx
    obtain ⟨e, he, -⟩ := kindOf_eq_some.mp (kindOf_radius h x hradius)
    refine ⟨_, by rw [contextNode, he, Option.map_some], by simp [labelIn, he], fun t => ?_⟩
    rw [mem_sortedBy, mem_filterMap_label fun y hy =>
      kindOf_radius h y ((mem_dependencyIds h hradius).mp hy).1]
  have hnames : ∀ ids : List String, (∀ x ∈ ids, x ∈ graphServices context) →
      (ids.filterMap (contextNode int context)).map (·.name) = ids.map (labelIn (contextEntities context)) := by
    intro ids
    induction ids with
    | nil => exact fun _ => rfl
    | cons x ids ih =>
      intro hids
      obtain ⟨node, hsome, hname, -⟩ := hnode x (hids x (List.mem_cons_self ..))
      rw [List.filterMap_cons_some hsome, List.map_cons, List.map_cons, hname,
        ih fun y hy => hids y (List.mem_cons_of_mem _ hy)]
  have hnodup : (((graphServices context).filterMap (contextNode int context)).map (·.name)).Nodup := by
    rw [hnames _ fun _ hx => hx]
    refine List.Nodup.map_on (fun x hx y hy => ?_) ((sortedSet_nodup _).filter _)
    exact hinjective x ((mem_graphServices h).mp hx) y ((mem_graphServices h).mp hy)
  refine ⟨fun a b => ?_, hinjective⟩
  rw [contextGraph, dependsOn_foldl_add hnodup]
  simp only [List.mem_filterMap]
  constructor
  · rintro ⟨node, ⟨x, hx, hsome⟩, rfl, hb⟩
    obtain ⟨node', hsome', hname, hdeps⟩ := hnode x hx
    obtain rfl := Option.some.inj (hsome.symm.trans hsome')
    have hradius := (mem_graphServices h).mp hx
    obtain ⟨y, hy, rfl⟩ := (hdeps b).mp hb
    obtain ⟨hyradius, husable⟩ := (mem_dependencyIds h hradius).mp hy
    exact ⟨x, y, ⟨hradius, hyradius, husable⟩, hname.symm, rfl⟩
  · rintro ⟨x, y, ⟨hx, hy, husable⟩, rfl, rfl⟩
    obtain ⟨node, hsome, hname, hdeps⟩ := hnode x ((mem_graphServices h).mpr hx)
    refine ⟨node, ⟨x, (mem_graphServices h).mpr hx, hsome⟩, hname, (hdeps _).mpr ⟨y, ?_, rfl⟩⟩
    exact (mem_dependencyIds h hx).mpr ⟨hy, husable⟩

/-- Every service of the blast radius depends on a changed one within the blast radius. -/
theorem path_within_radius (h : Assembled model query entities evidence relationships now context) {x : String}
    (hx : x ∈ context.blastRadius) : ∃ c ∈ context.changedServices, Relation.ReflTransGen
      (Within context.blastRadius fun x y =>
        usableAt (settled model query entities evidence relationships now) ⟨x, .dependsOn, y⟩) x c := by
  have hx' := hx
  rw [h.blastRadius] at hx'
  obtain ⟨c, hc, hpath⟩ := mem_blastRadius.mp hx'
  refine ⟨c, hc, ?_⟩
  clear hx hx'
  induction hpath with
  | refl => exact .refl
  | tail hpath hstep ih =>
    have hmem : ∀ z, Relation.ReflTransGen _ c z → z ∈ context.blastRadius := fun z hz => by
      rw [h.blastRadius]
      exact mem_blastRadius.mpr ⟨c, hc, hz⟩
    exact .head ⟨hmem _ (hpath.tail hstep), hmem _ hpath, hstep.1⟩ ih

/-- Over labels, the graph of a context has the blast radius of the context. -/
theorem impacted_contextGraph (h : Assembled model query entities evidence relationships now context)
    (hdistinct : DistinctServiceLabels entities) {t : String} :
    (contextGraph int context).Impacted (entityLabels context context.changedServices) t ↔
      t ∈ entityLabels context context.blastRadius := by
  have hlabels : ∀ {ids : List String}, ids ⊆ context.blastRadius → ∀ u, u ∈ entityLabels context ids ↔
      ∃ id ∈ ids, labelIn (contextEntities context) id = u := by
    intro ids hids u
    rw [entityLabels, mem_sortedBy, mem_filterMap_label fun id hid => kindOf_radius h id (hids hid)]
  have hchanged := changed_subset_radius h
  rw [(labelled_contextGraph int h hdistinct).impacted_iff (fun c hc => hchanged hc) (hlabels hchanged),
    hlabels (List.Subset.refl _)]
  constructor
  · rintro ⟨x, hx, hlabel, -⟩
    exact ⟨x, hx, hlabel⟩
  · rintro ⟨x, hx, hlabel⟩
    exact ⟨x, hx, hlabel, path_within_radius h hx⟩

end

/-- The world-model adapter reports exactly the blast radius that its graph has. -/
theorem reported_radius_is_assessed (int : String → Option Int) (floatRepr : ℚ → String) (sha256 : String → String)
    (l : Listing String) (model : WorldModel) (s : Store) (clock : Int) (provider repository : String)
    (changedServices : List String) (principal : BrainPrincipal) (context : PRGuardianCompanyContext)
    (hdistinct : DistinctServiceLabels (s.entityDict model.tenantId))
    (h : worldContextFor int floatRepr sha256 model s clock provider repository changedServices principal =
      .ok context) (x : String) :
    x ∈ context.graph.blastRadius l context.changedServices ↔ x ∈ context.blastRadius := by
  unfold worldContextFor at h
  obtain ⟨world, hworld, h⟩ := bind_eq_ok_iff.mp h
  obtain ⟨decisionContext, -, h⟩ := bind_eq_ok_iff.mp h
  obtain ⟨packet, -, h⟩ := bind_eq_ok_iff.mp h
  obtain ⟨health, -, h⟩ := bind_eq_ok_iff.mp h
  obtain rfl := Except.ok.inj h
  obtain ⟨now, -, -, hassembled⟩ := assembled_of_ok (mapError_eq_ok hworld)
  rw [ServiceGraph.mem_blastRadius]
  exact impacted_contextGraph int hassembled hdistinct

namespace Portal

open CompanyBrain.Sample (engineer acmeModel terms service citing)

def repository : BrainEntity := ⟨"repository:github:acme/payments", .repository, "payments", [], by decide +kernel⟩

theorem portal_valid : entityProblem "service:portal" "portal" [] = none := by decide +kernel

def portal : BrainEntity := ⟨"service:portal", .service, "portal", [], portal_valid⟩

theorem citation_valid : evidenceProblem "evidence:1" "adr" "notes" "1" ["engineering"] [] = none := by decide

/-- A service of a repository, and a service of none that depends on it. -/
def stored : List StoreOp :=
  [.putEntity "acme" repository terms 1, .putEntity "acme" service terms 2, .putEntity "acme" portal terms 3,
    .putEvidence "acme" (citing "evidence:1" ["engineering"] citation_valid) terms 4 4,
    .putRelationship "acme" ⟨"service:payments", "repository:github:acme/payments", .belongsTo, ["evidence:1"],
      by decide⟩ terms 5,
    .putRelationship "acme" ⟨"service:portal", "service:payments", .dependsOn, ["evidence:1"], by decide⟩ terms 6]

/-- `repr` of the one confidence. -/
def floatRepr (_ : ℚ) : String := "0.9"

/-- A digest, whatever the text. -/
def sha256 (_ : String) : String := "ffda15359cbc9944bcc7a9f41ce9fb8d1a520d38c5ab9cecbf18c5186fb1083c"

end Portal

theorem portal_radius_is_assessed :
    ∃ context, worldContextFor (fun _ => none) Portal.floatRepr Portal.sha256 Sample.acmeModel
        (runState Store.step Store.empty Portal.stored) 0 "github" "acme/payments" ["payments"] Sample.engineer =
          .ok context ∧
      ∀ x, x ∈ context.graph.blastRadius ⟨id, fun _ => .refl _⟩ context.changedServices ↔
        x ∈ context.blastRadius := by
  have hanswers : (worldContextFor (fun _ => none) Portal.floatRepr Portal.sha256 Sample.acmeModel
      (runState Store.step Store.empty Portal.stored) 0 "github" "acme/payments" ["payments"]
        Sample.engineer).isOk = true := by
    decide +kernel
  obtain ⟨context, hcontext⟩ := isOk_iff.mp hanswers
  have hdistinct : DistinctServiceLabels
      ((runState Store.step Store.empty Portal.stored).entityDict Sample.acmeModel.tenantId) := by
    unfold DistinctServiceLabels
    decide +kernel
  exact ⟨context, hcontext, reported_radius_is_assessed _ _ _ _ _ _ _ _ _ _ _ context hdistinct hcontext⟩

/-! ### The in-memory adapter -/

/-- A service that belongs to a repository. -/
def MemberOf (b : CompanyBrain) (repositoryId x : String) : Prop :=
  (∃ r ∈ b.related.rows, r.key = ⟨x, .belongsTo, repositoryId⟩) ∧ b.kindOf x = some .service

section
variable {b : CompanyBrain} {repo : String} {services : List String}

theorem entityAt_eq_ok {id : String} {e : BrainEntity} :
    b.entityAt id = .ok e ↔ b.entities.get id = some e := by
  unfold CompanyBrain.entityAt
  cases b.entities.get id <;> simp

theorem mem_servicesForRepository (h : b.servicesForRepository repo = .ok services) {x : String} :
    x ∈ services ↔ MemberOf b repo x := by
  unfold CompanyBrain.servicesForRepository CompanyBrain.sourcesOf at h
  obtain ⟨found, hfound, h⟩ := bind_eq_ok_iff.mp h
  obtain rfl := Except.ok.inj h
  rw [mem_sortedBy, List.mem_filterMap]
  simp only [id_eq, exists_eq_right, mapM_ok_mem hfound, CompanyBrain.mem_incoming]
  constructor
  · rintro ⟨r, ⟨hr, htarget, hkind⟩, hlook⟩
    obtain ⟨e, he, hsome⟩ := map_eq_ok hlook
    split at hsome
    · next hservice =>
      obtain rfl := Option.some.inj hsome
      refine ⟨⟨r, hr, by rw [BrainRelationship.key, htarget, hkind]⟩, ?_⟩
      rw [CompanyBrain.kindOf, entityAt_eq_ok.mp he]
      simpa using hservice
    · cases hsome
  · rintro ⟨⟨r, hr, hkey⟩, hkind⟩
    obtain ⟨rfl, hrelationship, htarget⟩ := EdgeKey.mk.inj hkey
    obtain ⟨e, he, hservice⟩ := Option.map_eq_some_iff.mp hkind
    refine ⟨r, ⟨hr, htarget, hrelationship⟩, ?_⟩
    rw [entityAt_eq_ok.mpr he]
    simp [Except.map, hservice]

/-- A service is listed once, since a relationship is kept once. -/
theorem servicesForRepository_nodup (h : b.servicesForRepository repo = .ok services) : services.Nodup := by
  unfold CompanyBrain.servicesForRepository CompanyBrain.sourcesOf at h
  obtain ⟨found, hfound, h⟩ := bind_eq_ok_iff.mp h
  obtain rfl := Except.ok.inj h
  have hsources : ((b.incoming repo .belongsTo).map (·.sourceId)).Nodup := by
    have hrows : b.relationships.Nodup := ((perm_sortedBy _ _).nodup_iff).mpr (List.Nodup.of_map _ b.related.unique)
    refine List.Nodup.map_on (fun r hr r' hr' hsource => ?_) (hrows.filter _)
    obtain ⟨hmem, htarget, hkind⟩ := CompanyBrain.mem_incoming.mp hr
    obtain ⟨hmem', htarget', hkind'⟩ := CompanyBrain.mem_incoming.mp hr'
    refine List.inj_on_of_nodup_map b.related.unique hmem hmem' ?_
    rw [BrainRelationship.key, BrainRelationship.key, hsource, hkind, htarget, hkind', htarget']
  have hsub : ∀ (rs : List BrainRelationship) (ids : List (Option String)),
      List.Forall₂ (fun r id => ((b.entityAt r.sourceId).map fun e =>
        if e.kind ∈ [EntityKind.service] then some r.sourceId else none) = .ok id) rs ids →
      (ids.filterMap id).Sublist (rs.map (·.sourceId)) := by
    intro rs ids hpairs
    induction hpairs with
    | nil => exact List.Sublist.refl _
    | cons hlook _ ih =>
      obtain ⟨e, -, hsome⟩ := map_eq_ok hlook
      split at hsome
      · rw [← hsome]
        exact ih.cons_cons _
      · rw [← hsome]
        exact ih.cons _
  exact ((perm_sortedBy id _).nodup_iff).mpr ((hsub _ _ (mapM_eq_ok.mp hfound)).nodup hsources)

variable {int : String → Option Int} {graph : ServiceGraph}

theorem repositoryNode_eq_ok {service : String} {node : ServiceNode}
    (h : repositoryNode int b services service = .ok node) : node.name = labelIn b.entities service ∧
      ∀ t, t ∈ node.dependencies ↔ ∃ y ∈ services,
        (∃ r ∈ b.related.rows, r.key = ⟨service, .dependsOn, y⟩) ∧ labelIn b.entities y = t := by
  unfold repositoryNode at h
  obtain ⟨entity, hentity, h⟩ := bind_eq_ok_iff.mp h
  obtain ⟨targets, htargets, h⟩ := bind_eq_ok_iff.mp h
  obtain ⟨owners, -, h⟩ := bind_eq_ok_iff.mp h
  obtain ⟨owner, rfl⟩ : ∃ owner, node = ⟨entity.label, tier int (tierAttribute entity), owner,
      sortedBy id (targets.map (·.label))⟩ := by
    cases owners with
    | nil => exact ⟨none, (Except.ok.inj h).symm⟩
    | cons first rest =>
      obtain ⟨owner, -, h⟩ := bind_eq_ok_iff.mp h
      exact ⟨owner, (Except.ok.inj h).symm⟩
  refine ⟨by simp [labelIn, entityAt_eq_ok.mp hentity], fun t => ?_⟩
  have hlabel : ∀ {id : String} {e : BrainEntity}, b.entityAt id = .ok e → labelIn b.entities id = e.label := by
    intro id e he
    simp [labelIn, entityAt_eq_ok.mp he]
  simp only [mem_sortedBy, List.mem_map, mapM_ok_mem htargets, List.mem_filter, decide_eq_true_eq,
    CompanyBrain.outgoing, CompanyBrain.relationships, Bool.and_eq_true]
  constructor
  · rintro ⟨e, ⟨r, ⟨⟨hr, hsource, hkind⟩, hknown⟩, he⟩, rfl⟩
    exact ⟨r.targetId, hknown, ⟨r, hr, by rw [BrainRelationship.key, hsource, hkind]⟩, hlabel he⟩
  · rintro ⟨y, hy, ⟨r, hr, hkey⟩, rfl⟩
    obtain ⟨hsource, hkind, rfl⟩ := EdgeKey.mk.inj hkey
    have hmem : r ∈ (b.outgoing service .dependsOn).filter (·.targetId ∈ services) := by
      simp [CompanyBrain.outgoing, CompanyBrain.relationships, hr, hsource, hkind, hy]
    obtain ⟨e, he⟩ := isOk_iff.mp (mapM_isOk_iff.mp (isOk_iff.mpr ⟨targets, htargets⟩) r hmem)
    exact ⟨e, ⟨r, ⟨⟨hr, hsource, hkind⟩, hy⟩, he⟩, (hlabel he).symm⟩

theorem serviceGraph_eq_ok (hservices : b.servicesForRepository repo = .ok services)
    (h : serviceGraph int b repo = .ok graph) : ∃ nodes, services.mapM (repositoryNode int b services) = .ok nodes ∧
      graph = nodes.foldl ServiceGraph.add ServiceGraph.empty := by
  unfold serviceGraph at h
  split at h
  · cases h
  · obtain ⟨listed, hlisted, h⟩ := bind_eq_ok_iff.mp h
    obtain rfl := Except.ok.inj (hservices.symm.trans hlisted)
    obtain ⟨nodes, hnodes, h⟩ := bind_eq_ok_iff.mp h
    exact ⟨nodes, hnodes, (Except.ok.inj h).symm⟩

/-- The graph of a repository is its services with the dependencies among them, under labels. -/
theorem labelled_serviceGraph (hservices : b.servicesForRepository repo = .ok services)
    (hgraph : serviceGraph int b repo = .ok graph) (hdistinct : DistinctServiceLabels b.entities) :
    Labelled graph services (labelIn b.entities) b.Dependency := by
  have hkind : ∀ x ∈ services, b.kindOf x = some .service := fun x hx =>
    ((mem_servicesForRepository hservices).mp hx).2
  have hinjective : ∀ x ∈ services, ∀ y ∈ services, labelIn b.entities x = labelIn b.entities y → x = y :=
    fun x hx y hy hlabel => hdistinct.injective (hkind x hx) (hkind y hy) hlabel
  obtain ⟨nodes, hnodes, rfl⟩ := serviceGraph_eq_ok hservices hgraph
  have hnames : nodes.map (·.name) = services.map (labelIn b.entities) := by
    have hall : ∀ (xs : List String) (ns : List ServiceNode),
        List.Forall₂ (fun x n => repositoryNode int b services x = .ok n) xs ns →
          ns.map (·.name) = xs.map (labelIn b.entities) := by
      intro xs ns hpairs
      induction hpairs with
      | nil => rfl
      | cons hnode _ ih => rw [List.map_cons, List.map_cons, ih, (repositoryNode_eq_ok hnode).1]
    exact hall _ _ (mapM_eq_ok.mp hnodes)
  have hnodup : (nodes.map (·.name)).Nodup := by
    rw [hnames]
    exact List.Nodup.map_on hinjective (servicesForRepository_nodup hservices)
  refine ⟨fun t u => ?_, hinjective⟩
  rw [dependsOn_foldl_add hnodup]
  simp only [mapM_ok_mem hnodes]
  constructor
  · rintro ⟨node, ⟨x, hx, hnode⟩, rfl, hu⟩
    obtain ⟨hname, hdeps⟩ := repositoryNode_eq_ok hnode
    obtain ⟨y, hy, hedge, rfl⟩ := (hdeps u).mp hu
    exact ⟨x, y, ⟨hx, hy, hedge, hkind x hx⟩, hname.symm, rfl⟩
  · rintro ⟨x, y, ⟨hx, hy, hedge⟩, rfl, rfl⟩
    obtain ⟨node, hnode⟩ := isOk_iff.mp (mapM_isOk_iff.mp (isOk_iff.mpr ⟨nodes, hnodes⟩) x hx)
    obtain ⟨hname, hdeps⟩ := repositoryNode_eq_ok hnode
    exact ⟨node, ⟨x, hx, hnode⟩, hname, (hdeps _).mpr ⟨y, hy, hedge.1, rfl⟩⟩

/-- What the answer to a query says of the change. -/
theorem brainContext_eq_ok {changed : List String} {principal : BrainPrincipal} {core : CompanyBrainContext}
    (h : b.contextForChange repo changed principal = .ok core) :
    ∃ services, b.servicesForRepository repo = .ok services ∧
      core.changedServices = (sortedSet changed).filter (· ∈ services) ∧
      b.blastRadiusOf core.changedServices = .ok core.blastRadius := by
  unfold CompanyBrain.contextForChange at h
  split at h
  · cases h
  · obtain ⟨services, hservices, h⟩ := bind_eq_ok_iff.mp h
    obtain ⟨radius, hradius, h⟩ := bind_eq_ok_iff.mp h
    obtain ⟨authorized, -, h⟩ := bind_eq_ok_iff.mp h
    obtain ⟨owners, -, h⟩ := bind_eq_ok_iff.mp h
    obtain rfl := Except.ok.inj h
    exact ⟨services, hservices, rfl, hradius⟩

end

/-- Whatever depends on a changed service of the repository belongs to the repository. -/
def StaysWithin (b : CompanyBrain) (repositoryId : String) (changedServices : List String) : Prop :=
  ∀ c ∈ changedServices, MemberOf b repositoryId c →
    ∀ x, Relation.ReflTransGen b.Dependency x c → MemberOf b repositoryId x

/-- The graph that the risk is computed on has the blast radius that is reported. -/
def AssessesReported (l : Listing String) (context : PRGuardianCompanyContext) : Prop :=
  (∀ x, x ∈ context.graph.blastRadius l context.changedServices ↔ x ∈ context.blastRadius) ∧
    ∀ x ∈ context.blastRadius, (context.graph.nodes.get x).isSome = true

/-- A graph over the services of a repository has a node for each. -/
theorem serviceGraph_isSome {int : String → Option Int} {b : CompanyBrain} {repo : String} {services : List String}
    {graph : ServiceGraph} (hservices : b.servicesForRepository repo = .ok services)
    (hgraph : serviceGraph int b repo = .ok graph) {x : String} (hx : x ∈ services) :
    (graph.nodes.get (labelIn b.entities x)).isSome = true := by
  obtain ⟨nodes, hnodes, rfl⟩ := serviceGraph_eq_ok hservices hgraph
  obtain ⟨node, hnode⟩ := isOk_iff.mp (mapM_isOk_iff.mp (isOk_iff.mpr ⟨nodes, hnodes⟩) x hx)
  have hmem : labelIn b.entities x ∈ nodes.map (·.name) :=
    List.mem_map.mpr ⟨node, (mapM_ok_mem hnodes node).mpr ⟨x, hx, hnode⟩, (repositoryNode_eq_ok hnode).1⟩
  have hadd : ∀ (ns : List ServiceNode) (graph : ServiceGraph) (name : String),
      (graph.nodes.get name).isSome = true ∨ name ∈ ns.map (·.name) →
        ((ns.foldl ServiceGraph.add graph).nodes.get name).isSome = true := by
    intro ns
    induction ns with
    | nil => exact fun graph name h => h.resolve_right (by simp)
    | cons n ns ih =>
      intro graph name h
      refine ih (graph.add n) name ?_
      rw [ServiceGraph.add, Table.get_put]
      split
      · exact .inl rfl
      · next hne => simpa [hne] using h
  exact hadd nodes _ _ (.inr hmem)

theorem mem_labels {b : CompanyBrain} {ids : List String} {es : List BrainEntity} (h : ids.mapM b.entityAt = .ok es)
    {t : String} : t ∈ es.map (·.label) ↔ ∃ id ∈ ids, labelIn b.entities id = t := by
  simp only [List.mem_map, mapM_ok_mem h]
  constructor
  · rintro ⟨e, ⟨id, hid, he⟩, rfl⟩
    exact ⟨id, hid, by simp [labelIn, entityAt_eq_ok.mp he]⟩
  · rintro ⟨id, hid, rfl⟩
    obtain ⟨e, he⟩ := isOk_iff.mp (mapM_isOk_iff.mp (isOk_iff.mpr ⟨es, h⟩) id hid)
    exact ⟨e, ⟨id, hid, he⟩, by simp [labelIn, entityAt_eq_ok.mp he]⟩

/-- From services the blast radius is what depends on one of them. -/
theorem mem_reported {b : CompanyBrain} (hanchored : b.Anchored) {changed radius : List String}
    (hradius : b.blastRadiusOf changed = .ok radius) (hchanged : ∀ c ∈ changed, b.kindOf c = some .service)
    {x : String} : x ∈ radius ↔ ∃ c ∈ changed, Relation.ReflTransGen b.Dependency x c := by
  obtain ⟨found, hfound, hmem⟩ := hanchored.mem_blastRadiusOf changed
  obtain rfl := Except.ok.inj (hradius.symm.trans hfound)
  have hswap : (fun y z => z ∈ b.dependentsOf y) = Function.swap b.Dependency := by
    funext y z
    exact propext CompanyBrain.mem_dependentsOf
  rw [hmem]
  refine exists_congr fun c => and_congr_right fun hc => ?_
  obtain ⟨e, he, -⟩ := Option.map_eq_some_iff.mp (hchanged c hc)
  rw [hswap, Relation.reflTransGen_swap, he]
  exact and_iff_right rfl

/-- What lies between a service and a changed one it depends on is in the blast radius too. -/
theorem path_within {b : CompanyBrain} {services changed radius : List String}
    (hradius : ∀ x, x ∈ radius ↔ ∃ c ∈ changed, Relation.ReflTransGen b.Dependency x c)
    (hall : ∀ x ∈ radius, x ∈ services) {x c : String} (hc : c ∈ changed)
    (hpath : Relation.ReflTransGen b.Dependency x c) :
    Relation.ReflTransGen (Within services b.Dependency) x c := by
  induction hpath using Relation.ReflTransGen.head_induction_on with
  | refl => exact .refl
  | head hstep hrest ih =>
    exact .head ⟨hall _ ((hradius _).mpr ⟨c, hc, .head hstep hrest⟩), hall _ ((hradius _).mpr ⟨c, hc, hrest⟩),
      hstep⟩ ih

theorem assessesReported_iff {int : String → Option Int} {floatRepr : ℚ → String} {sha256 : String → String}
    (l : Listing String) {b : CompanyBrain} (hanchored : b.Anchored) {provider repository : String}
    {changedServices : List String} {principal : BrainPrincipal} {context : PRGuardianCompanyContext}
    (hdistinct : DistinctServiceLabels b.entities)
    (h : brainContextFor int floatRepr sha256 b provider repository changedServices principal = .ok context) :
    AssessesReported l context ↔
      StaysWithin b (repositoryId provider repository) (changedServices.map serviceId) := by
  unfold brainContextFor at h
  obtain ⟨core, hcore, h⟩ := bind_eq_ok_iff.mp h
  obtain ⟨evidence, -, h⟩ := bind_eq_ok_iff.mp h
  obtain ⟨graph, hgraph, h⟩ := bind_eq_ok_iff.mp h
  obtain ⟨decisionContext, -, h⟩ := bind_eq_ok_iff.mp h
  obtain ⟨packet, -, h⟩ := bind_eq_ok_iff.mp h
  obtain ⟨changed, hchanged, h⟩ := bind_eq_ok_iff.mp h
  obtain ⟨radius, hradius, h⟩ := bind_eq_ok_iff.mp h
  obtain ⟨health, -, h⟩ := bind_eq_ok_iff.mp h
  obtain rfl := Except.ok.inj h
  replace hgraph := mapError_eq_ok hgraph
  replace hchanged := mapError_eq_ok hchanged
  replace hradius := mapError_eq_ok hradius
  obtain ⟨services, hservices, hscoped, hreached⟩ := brainContext_eq_ok (mapError_eq_ok hcore)
  have hmember : ∀ x, x ∈ services ↔ MemberOf b (repositoryId provider repository) x := fun x =>
    mem_servicesForRepository hservices
  have hlabelled := labelled_serviceGraph hservices hgraph hdistinct
  have hrequested : ∀ c, c ∈ core.changedServices ↔ c ∈ changedServices.map serviceId ∧ c ∈ services := by
    intro c
    rw [hscoped, List.mem_filter, mem_sortedSet, decide_eq_true_eq]
  have hsub : ∀ c ∈ core.changedServices, c ∈ services := fun c hc => ((hrequested c).mp hc).2
  have hfound : ∀ x, x ∈ core.blastRadius ↔
      ∃ c ∈ core.changedServices, Relation.ReflTransGen b.Dependency x c := fun x =>
    mem_reported hanchored hreached fun c hc => ((hmember c).mp (hsub c hc)).2
  have hkind : ∀ x ∈ core.blastRadius, b.kindOf x = some .service := by
    intro x hx
    obtain ⟨c, hc, hpath⟩ := (hfound x).mp hx
    obtain rfl | ⟨y, hstep, -⟩ := hpath.cases_head
    · exact ((hmember x).mp (hsub x hc)).2
    · exact hstep.2
  have hwithin : StaysWithin b (repositoryId provider repository) (changedServices.map serviceId) ↔
      ∀ x ∈ core.blastRadius, x ∈ services := by
    constructor
    · intro hstays x hx
      obtain ⟨c, hc, hpath⟩ := (hfound x).mp hx
      obtain ⟨hasked, hservice⟩ := (hrequested c).mp hc
      exact (hmember x).mpr (hstays c hasked ((hmember c).mp hservice) x hpath)
    · intro hall c hc hcmember x hpath
      refine (hmember x).mp (hall x ((hfound x).mpr ⟨c, ?_, hpath⟩))
      exact (hrequested c).mpr ⟨hc, (hmember c).mpr hcmember⟩
  have hassessed : ∀ t, t ∈ graph.blastRadius l (changed.map (·.label)) ↔ ∃ x ∈ services,
      labelIn b.entities x = t ∧ ∃ c ∈ core.changedServices,
        Relation.ReflTransGen (Within services b.Dependency) x c := fun t => by
    rw [ServiceGraph.mem_blastRadius, hlabelled.impacted_iff hsub fun u => mem_labels hchanged]
  rw [hwithin]
  constructor
  · rintro ⟨hagree, -⟩ x hx
    have hreported : labelIn b.entities x ∈ radius.map (·.label) := (mem_labels hradius).mpr ⟨x, hx, rfl⟩
    obtain ⟨y, hy, hlabel, -⟩ := (hassessed _).mp ((hagree _).mpr hreported)
    rwa [← hdistinct.injective ((hmember y).mp hy).2 (hkind x hx) hlabel]
  · intro hall
    refine ⟨fun t => ?_, fun t ht => ?_⟩
    · rw [hassessed, mem_labels hradius]
      constructor
      · rintro ⟨x, -, hlabel, c, hc, hpath⟩
        exact ⟨x, (hfound x).mpr ⟨c, hc, Relation.ReflTransGen.mono (fun _ _ hstep => hstep.2.2) x c hpath⟩, hlabel⟩
      · rintro ⟨x, hx, hlabel⟩
        obtain ⟨c, hc, hpath⟩ := (hfound x).mp hx
        exact ⟨x, hall x hx, hlabel, c, hc, path_within hfound hall hc hpath⟩
    · obtain ⟨x, hx, rfl⟩ := (mem_labels hradius).mp ht
      exact serviceGraph_isSome hservices hgraph (hall x hx)

namespace Portal

/-- The same repository and services in memory. -/
def calls : List CompanyBrain.Mutator :=
  [.upsertEntity repository, .upsertEntity CompanyBrain.Sample.service, .upsertEntity portal,
    .relate "service:payments" "repository:github:acme/payments" .belongsTo [],
    .relate "service:portal" "service:payments" .dependsOn []]

theorem brainContext_isOk : (brainContextFor (fun _ => none) floatRepr sha256
    (runState CompanyBrain.mutate CompanyBrain.empty calls) "github" "acme/payments" ["payments"]
      Sample.engineer).isOk = true := by
  decide +kernel

theorem distinct_labels :
    DistinctServiceLabels (runState CompanyBrain.mutate CompanyBrain.empty calls).entities := by
  unfold DistinctServiceLabels
  decide

end Portal

end EngineeringIntelligence.PrGuardian.Company
