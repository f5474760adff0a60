import Neuroswarm.Okf.Pipeline

/-!
# Knowledge compiler — documents with their keys in another order

What `compile_bundle` makes of documents, where some have their frontmatter with its keys in
order. Lists and texts that are made of a mapping show the order of its keys, and a document
`Survives` where the compiler makes none; otherwise nothing depends on the order.

* `Alike` — the document, or the same one arranged.
* `assemble_alike` — alike documents give the same, up to the order of keys.
-/

namespace Neuroswarm.Okf

open Armcascade (Text)

variable {L : Libraries}

-- ------ Documents

def DocumentNode.arranged (doc : DocumentNode) : DocumentNode :=
  { doc with frontmatter := doc.frontmatter.arranged }

/-- The frontmatter comes back from JSON, and no alias, id, list of tags or object of a relation
depends on the order of keys in it. -/
structure Survives (L : Libraries) (doc : DocumentNode) : Prop where
  plain : plain (.dict doc.frontmatter) = true
  declared : doc.arranged.declared L = doc.declared L
  candidates : candidates L doc.arranged = candidates L doc
  tags : (doc.arranged.frontmatter.get "tags").itemsOrNone.map (List.map arranged) =
    (doc.frontmatter.get "tags").itemsOrNone.map (List.map arranged)
  objects : ∀ rels, relations doc = .ok rels → ∀ rel ∈ rels, ∀ obj, rel.attr "obj" = .ok obj →
    L.str (arranged obj) = L.str obj

theorem survives_of_ordered {doc : DocumentNode} (hPlain : plain (.dict doc.frontmatter) = true)
    (hKeys : ∀ k ∈ ["nexus_id", "id", "aliases", "tags"],
      arranged (doc.frontmatter.get k) = doc.frontmatter.get k)
    (hObjects : ∀ rels, relations doc = .ok rels → ∀ rel ∈ rels, ∀ obj,
      rel.attr "obj" = .ok obj → arranged obj = obj) : Survives L doc := by
  have hGet : ∀ k ∈ ["nexus_id", "id", "aliases", "tags"],
      doc.arranged.frontmatter.get k = doc.frontmatter.get k := by
    intro k hk
    rw [DocumentNode.arranged, Mapping.get_arranged, hKeys k hk]
  have hDeclared : doc.arranged.declared L = doc.declared L := by
    rw [DocumentNode.declared, DocumentNode.declared, hGet "aliases" (by simp)]
  exact
    { plain := hPlain
      declared := hDeclared
      candidates := by
        rw [candidates, candidates, hDeclared, hGet "nexus_id" (by simp), hGet "id" (by simp)]
        rfl
      tags := by rw [hGet "tags" (by simp)]
      objects := fun rels hRels rel hRel obj hObj =>
        congrArg L.str (hObjects rels hRels rel hRel obj hObj) }

/-- The same document, or the document with its keys in order. -/
def Alike (L : Libraries) (doc' doc : DocumentNode) : Prop :=
  doc' = doc ∨ doc' = doc.arranged ∧ Survives L doc

theorem arranged_mapping (d : Mapping) : Yaml.dict d.arranged = arranged (.dict d) := rfl

theorem DocumentNode.arranged_arranged (doc : DocumentNode) :
    doc.arranged.arranged = doc.arranged := by
  have hTwice := Okf.arranged_arranged (.dict doc.frontmatter)
  rw [← arranged_mapping, ← arranged_mapping] at hTwice
  injection hTwice with hTwice
  exact congrArg (fun fm => { doc with frontmatter := fm }) hTwice

namespace Alike

variable {doc' doc : DocumentNode}

theorem arranged_eq (h : Alike L doc' doc) : doc'.arranged = doc.arranged := by
  rcases h with rfl | ⟨rfl, -⟩
  · rfl
  · exact doc.arranged_arranged

theorem eq_frontmatter (h : Alike L doc' doc) :
    doc' = { doc with frontmatter := doc'.frontmatter } := by
  rcases h with rfl | ⟨rfl, -⟩
  · rfl
  · rfl

theorem id_eq (h : Alike L doc' doc) : doc'.id = doc.id := by rw [h.eq_frontmatter]

theorem relPath_eq (h : Alike L doc' doc) : doc'.relPath = doc.relPath := by
  rw [h.eq_frontmatter]

theorem declared_eq (h : Alike L doc' doc) : doc'.declared L = doc.declared L := by
  rcases h with rfl | ⟨rfl, hSurvives⟩
  · rfl
  · exact hSurvives.declared

theorem candidates_eq (h : Alike L doc' doc) : candidates L doc' = candidates L doc := by
  rcases h with rfl | ⟨rfl, hSurvives⟩
  · rfl
  · exact hSurvives.candidates

end Alike

-- ------ Relations

theorem plain_get {d : Mapping} (h : plain (.dict d) = true) (k : String) :
    plain (d.get k) = true := by
  unfold Mapping.get Mapping.get?
  cases hFind : d.find? fun m => m.1.isKey k.toList with
  | none => rfl
  | some m => exact (plain_dict.mp h m (List.mem_of_find?_eq_some hFind)).2

/-- The items of an arranged value: arranged, or texts in another order. -/
def ItemsAlike (xs' xs : List Yaml) : Prop :=
  (xs' = xs.map arranged ∧ ∀ x ∈ xs, plain x = true) ∨
    (xs'.Perm xs ∧ ∀ x ∈ xs, x.isText = true)

theorem itemsOrNone_arranged {v : Yaml} (h : plain v = true) :
    Except.Rel ItemsAlike (arranged v).itemsOrNone v.itemsOrNone := by
  unfold Yaml.itemsOrNone
  rw [Yaml.truthy_arranged]
  split
  · cases v with
    | str s =>
      refine .ok (.inl ⟨?_, ?_⟩)
      · rw [List.map_map]
        rfl
      · intro x hx
        obtain ⟨c, -, rfl⟩ := List.mem_map.mp hx
        rfl
    | list xs => exact .ok (.inl ⟨arrangedItems_eq xs, plain_list.mp h⟩)
    | dict ms =>
      refine .ok (.inr ⟨?_, ?_⟩)
      · have hKeys : (arrangedMembers ms).map Prod.fst = ms.map Prod.fst := by
          rw [arrangedMembers_eq, List.map_map]
          rfl
        exact hKeys ▸ (perm_byKey _).map Prod.fst
      · intro k hk
        obtain ⟨m, hm, rfl⟩ := List.mem_map.mp hk
        exact (plain_dict.mp h m hm).1
    | date | datetime | bytes | tuple | set => cases h
    | _ => exact .error _
  · exact .ok (.inl ⟨rfl, List.forall_mem_nil _⟩)

theorem attr_arranged (v : Yaml) (k : String) :
    (arranged v).attr k = (v.attr k).map arranged := by
  cases v with
  | dict ms => exact congrArg Except.ok (Mapping.get_arranged ms k)
  | _ => rfl

theorem plain_attr {v w : Yaml} (h : plain v = true) {k : String} (hAttr : v.attr k = .ok w) :
    plain w = true := by
  cases v with
  | dict ms =>
    obtain rfl := Except.ok.inj hAttr
    exact plain_get h k
  | _ => cases hAttr

theorem relations_arranged {doc : DocumentNode} (h : plain (.dict doc.frontmatter) = true) :
    Except.Rel ItemsAlike (relations doc.arranged) (relations doc) := by
  have hOntology : (doc.arranged.frontmatter.get "ontology").orElse (.dict []) =
      arranged ((doc.frontmatter.get "ontology").orElse (.dict [])) := by
    unfold Yaml.orElse
    rw [DocumentNode.arranged, Mapping.get_arranged, Yaml.truthy_arranged]
    split <;> rfl
  have hPlain : plain ((doc.frontmatter.get "ontology").orElse (.dict [])) = true := by
    unfold Yaml.orElse
    split
    · exact plain_get h _
    · rfl
  simp only [relations, hOntology, attr_arranged]
  cases hAttr : ((doc.frontmatter.get "ontology").orElse (.dict [])).attr "relations" with
  | error e => exact .error e
  | ok rels => exact itemsOrNone_arranged (plain_attr hPlain hAttr)

-- ------ Alias map and ontology

variable {docs' docs : List DocumentNode}

theorem buildAliasMap_alike (h : List.Forall₂ (Alike L) docs' docs) :
    buildAliasMap L docs' = buildAliasMap L docs := by
  refine Except.Rel.eq (Except.Rel.foldlM h (fun out out' doc' doc hOut hDoc => ?_) rfl)
  subst hOut
  rw [hDoc.declared_eq, hDoc.id_eq, hDoc.relPath_eq]
  exact Except.Rel.refl (fun _ => rfl) _

theorem arranged_of_hashable {v : Yaml} (h : plain v = true) (hHash : unhashable v = none) :
    arranged v = v := by
  cases v with
  | list | dict => cases hHash
  | _ => rfl

theorem unhashable_arranged (v : Yaml) : unhashable (arranged v) = unhashable v := by
  cases v <;> rfl

theorem checkPredicate_arranged (ontology : Ontology) (doc : DocumentNode) {rel : Yaml}
    (h : plain rel = true) (diag : Diagnostics) :
    checkPredicate L ontology doc diag (arranged rel) = checkPredicate L ontology doc diag rel := by
  unfold checkPredicate
  rw [attr_arranged]
  cases hAttr : rel.attr "pred" with
  | error e => rfl
  | ok pred =>
    have hPlain := plain_attr h hAttr
    show (if (arranged pred).truthy then _ else _) = (if pred.truthy then _ else _)
    rw [Yaml.truthy_arranged, unhashable_arranged]
    cases hHash : unhashable pred with
    | some t => rfl
    | none => rw [arranged_of_hashable hPlain hHash]

theorem attr_of_isText {v : Yaml} (h : v.isText = true) (k : String) :
    v.attr k = .error (.noAttribute "str" "get") := by
  cases v with
  | str s => rfl
  | _ => cases h

theorem foldlM_itemsAlike {σ : Type} {f : σ → Yaml → Except Raised σ}
    (hText : ∀ s x, x.isText = true → f s x = .error (.noAttribute "str" "get"))
    (hPlain : ∀ s x, plain x = true → f s (arranged x) = f s x) {xs' xs : List Yaml}
    (h : ItemsAlike xs' xs) (s : σ) : xs'.foldlM f s = xs.foldlM f s := by
  rcases h with ⟨rfl, hAll⟩ | ⟨hPerm, hAll⟩
  · rw [List.foldlM_map]
    induction xs generalizing s with
    | nil => rfl
    | cons x xs ih =>
      obtain ⟨hHead, hTail⟩ := List.forall_mem_cons.mp hAll
      rw [List.foldlM_cons, List.foldlM_cons, hPlain s x hHead]
      exact congrArg _ (funext fun s => ih s hTail)
  · by_cases hNil : xs = []
    · subst hNil
      rw [hPerm.eq_nil]
    · have hNil' : xs' ≠ [] := fun h => hNil (List.nil_perm.mp (h ▸ hPerm))
      rw [Except.foldlM_of_forall_error (fun s x hx => hText s x (hAll x hx)) hNil,
        Except.foldlM_of_forall_error
          (fun s x hx => hText s x (hAll x (hPerm.mem_iff.mp hx))) hNil']

theorem checkOntologyOf_alike (ontology : Ontology) {doc' doc : DocumentNode}
    (h : Alike L doc' doc) (diag : Diagnostics) :
    checkOntologyOf L ontology diag doc' = checkOntologyOf L ontology diag doc := by
  rcases h with rfl | ⟨rfl, hSurvives⟩
  · rfl
  · have hType : (doc.arranged.frontmatter.get? "type").isNone =
        (doc.frontmatter.get? "type").isNone := by
      simp [DocumentNode.arranged]
    have hTitle : (doc.arranged.frontmatter.get "title").truthy =
        (doc.frontmatter.get "title").truthy := by
      simp [DocumentNode.arranged]
    unfold checkOntologyOf
    rw [hType, hTitle]
    refine if_congr Iff.rfl rfl (if_congr Iff.rfl rfl ?_)
    refine Except.Rel.eq ((relations_arranged hSurvives.plain).bind fun rels' rels hRels => ?_)
    have hLoop := foldlM_itemsAlike (f := checkPredicate L ontology doc) (fun diag x hx => by
        unfold checkPredicate
        rw [attr_of_isText hx]
        rfl)
      (fun diag x hx => checkPredicate_arranged ontology doc hx diag) hRels
      (checkClass ontology doc diag)
    show Except.Rel _ (List.foldlM (checkPredicate L ontology doc) _ _ >>= _) _
    rw [show checkClass ontology doc.arranged diag = checkClass ontology doc diag from rfl, hLoop]
    exact Except.Rel.refl (fun _ => rfl) _

theorem checkOntology_alike (ontology : Ontology) (h : List.Forall₂ (Alike L) docs' docs)
    (diag : Diagnostics) :
    checkOntology L docs' ontology diag = checkOntology L docs ontology diag := by
  refine Except.Rel.eq (Except.Rel.foldlM h (fun diag diag' doc' doc hDiag hDoc => ?_) rfl)
  subst hDiag
  rw [checkOntologyOf_alike ontology hDoc]
  exact Except.Rel.refl (fun _ => rfl) _

-- ------ The graph

/-- The node with the keys of its values in order. -/
def Node.arranged (n : Node) : Node :=
  { n with
    priority := Okf.arranged n.priority
    tags := n.tags.map Okf.arranged
    visibility := Okf.arranged n.visibility
    ns := Okf.arranged n.ns
    tokenBudget := Okf.arranged n.tokenBudget }

def EdgeAlike (e' e : Edge) : Prop :=
  e' = e ∨ e' = { e with pred := arranged e.pred } ∧ plain e.pred = true

theorem EdgeAlike.refl (e : Edge) : EdgeAlike e e := .inl rfl

theorem nodeOf_alike {doc' doc : DocumentNode} (h : Alike L doc' doc) :
    Except.Rel (fun n' n => n'.arranged = n.arranged) (nodeOf doc') (nodeOf doc) := by
  rcases h with rfl | ⟨rfl, hSurvives⟩
  · exact Except.Rel.refl (R := fun n' n : Node => n'.arranged = n.arranged) (fun _ => rfl) _
  · refine (Except.Rel.of_map_eq hSurvives.tags).bind fun tags' tags hTags => .ok ?_
    have hDefault : ∀ (k : String) (v : Yaml), arranged v = v →
        arranged ((doc.arranged.frontmatter.get? k).getD v) =
          arranged ((doc.frontmatter.get? k).getD v) := by
      intro k v hv
      rw [DocumentNode.arranged, Mapping.get?_arranged]
      cases doc.frontmatter.get? k with
      | none => rfl
      | some w => exact arranged_arranged w
    have hGet : ∀ k : String, arranged (doc.arranged.frontmatter.get k) =
        arranged (doc.frontmatter.get k) := by
      intro k
      rw [DocumentNode.arranged, Mapping.get_arranged, arranged_arranged]
    simp only [Node.arranged, hDefault _ (.int 50) rfl, hDefault _ (.str "internal".toList) rfl,
      hGet, hTags]
    rfl

theorem relationEdge_arranged (aliases : Dict Text Text) (doc : DocumentNode) {rel : Yaml}
    (h : plain rel = true)
    (hObj : ∀ obj, rel.attr "obj" = .ok obj → L.str (arranged obj) = L.str obj) :
    Except.Rel (Option.Rel EdgeAlike) (relationEdge L aliases doc (arranged rel))
      (relationEdge L aliases doc rel) := by
  cases rel with
  | dict ms =>
    have hStr : L.str (Mapping.get (byKey (arrangedMembers ms)) "obj") =
        L.str (Mapping.get ms "obj") :=
      (congrArg L.str (Mapping.get_arranged ms "obj")).trans (hObj _ rfl)
    have hDepends : ∀ o : Option Yaml, (o.map arranged).getD (.str "depends_on".toList) =
        arranged (o.getD (.str "depends_on".toList)) := fun o => by cases o <;> rfl
    have hPlain : plain ((Mapping.get? ms "pred").getD (.str "depends_on".toList)) = true := by
      cases hFind : Mapping.get? ms "pred" with
      | none => rfl
      | some pred =>
        have hGet := plain_get h "pred"
        rwa [Mapping.get, hFind] at hGet
    show Except.Rel _
      (if (Mapping.get (Mapping.arranged ms) "obj").truthy then _ else _)
      (if (Mapping.get ms "obj").truthy then _ else _)
    rw [Mapping.get_arranged, Yaml.truthy_arranged, hStr]
    split
    · refine .ok (.some (.inr ⟨?_, hPlain⟩))
      show Edge.mk _ _ ((Mapping.get? (Mapping.arranged ms) "pred").getD _) _ _ = _
      rw [Mapping.get?_arranged, hDepends]
    · exact .ok .none
  | _ => exact .error _

theorem mapM_relationEdge_alike {aliases : Dict Text Text} {doc : DocumentNode}
    {xs' xs : List Yaml} (h : ItemsAlike xs' xs)
    (hObj : ∀ rel ∈ xs, ∀ obj, rel.attr "obj" = .ok obj → L.str (arranged obj) = L.str obj) :
    Except.Rel (List.Forall₂ (Option.Rel EdgeAlike)) (xs'.mapM (relationEdge L aliases doc))
      (xs.mapM (relationEdge L aliases doc)) := by
  rcases h with ⟨rfl, hPlain⟩ | ⟨hPerm, hText⟩
  · rw [List.mapM_map]
    have hSame : List.Forall₂ (fun x y => x = y ∧ y ∈ xs) xs xs :=
      List.forall₂_same.mpr fun x hx => ⟨rfl, hx⟩
    refine Except.Rel.mapM hSame fun x y hxy => ?_
    obtain ⟨rfl, hx⟩ := hxy
    exact relationEdge_arranged aliases doc (hPlain x hx) (hObj x hx)
  · have hError : ∀ x : Yaml, x.isText = true →
        relationEdge L aliases doc x = .error (.noAttribute "str" "get") := by
      intro x hx
      unfold relationEdge
      rw [attr_of_isText hx]
      rfl
    by_cases hNil : xs = []
    · subst hNil
      rw [hPerm.eq_nil]
      exact .ok .nil
    · have hNil' : xs' ≠ [] := fun h => hNil (List.nil_perm.mp (h ▸ hPerm))
      rw [Except.mapM_of_forall_error (fun x hx => hError x (hText x hx)) hNil,
        Except.mapM_of_forall_error (fun x hx => hError x (hText x (hPerm.mem_iff.mp hx))) hNil']
      exact .error _

theorem edgesOf_alike {aliases rels : Dict Text Text} {doc' doc : DocumentNode}
    (h : Alike L doc' doc) :
    Except.Rel (List.Forall₂ EdgeAlike) (edgesOf L aliases rels doc')
      (edgesOf L aliases rels doc) := by
  rcases h with rfl | ⟨rfl, hSurvives⟩
  · exact Except.Rel.refl (R := List.Forall₂ EdgeAlike)
      (fun _ => List.forall₂_same.mpr fun e _ => EdgeAlike.refl e) _
  · unfold edgesOf
    have hRelations := relations_arranged hSurvives.plain
    have hObjects := hSurvives.objects
    generalize relations doc.arranged = items', relations doc = items at hRelations hObjects
    cases hRelations with
    | error e => exact .error e
    | ok hItems =>
      refine (mapM_relationEdge_alike hItems (hObjects _ rfl)).bind fun made' made hMade => .ok ?_
      have hOntology := List.rel_filterMap (fun _ _ h => h) hMade
      exact List.rel_append (List.forall₂_same.mpr fun e _ => EdgeAlike.refl e) hOntology

theorem keepEdge_alike (P : Platform) (kept : List Edge) {e' e : Edge} (h : EdgeAlike e' e) :
    keepEdge P kept e' = keepEdge P kept e := by
  rcases h with rfl | ⟨rfl, hPlain⟩
  · rfl
  · unfold keepEdge
    rw [unhashable_arranged]
    cases hHash : unhashable e.pred with
    | some t => rfl
    | none => simp only [arranged_of_hashable hPlain hHash]

/-- The graphs have the same nodes, up to the order of keys in them, and the same edges. -/
structure GraphAlike (g' g : OptimizedGraph) : Prop where
  nodes : g'.nodes.map Node.arranged = g.nodes.map Node.arranged
  edges : g'.edges = g.edges
  hints : g'.hints = g.hints

theorem forall₂_map_eq {α β : Type} {f : α → β} {R : α → α → Prop}
    (hR : ∀ a b, R a b → f a = f b) {xs ys : List α} (h : List.Forall₂ R xs ys) :
    xs.map f = ys.map f := by
  rw [← List.forall₂_eq_eq_eq, List.forall₂_map_left_iff, List.forall₂_map_right_iff]
  exact h.imp hR

theorem graph_alike (P : Platform) (h : List.Forall₂ (Alike L) docs' docs)
    (aliases : Dict Text Text) :
    Except.Rel GraphAlike (buildGraph L docs' aliases >>= fun g => optimizeGraph P g docs')
      (buildGraph L docs aliases >>= fun g => optimizeGraph P g docs) := by
  have hRel : byRel docs' = byRel docs := by
    unfold byRel
    rw [forall₂_map_eq (fun _ _ hDoc => Prod.ext hDoc.relPath_eq hDoc.id_eq) h]
  have hHints : (docs'.filter fun doc => doc.sections.length > 12).map DocumentNode.id =
      (docs.filter fun doc => doc.sections.length > 12).map DocumentNode.id := by
    refine forall₂_map_eq (fun _ _ hDoc => hDoc.id_eq) (List.rel_filter ?_ h)
    intro doc' doc hDoc
    rw [hDoc.eq_frontmatter]
  unfold buildGraph
  rw [bind_assoc, bind_assoc]
  refine (Except.Rel.mapM h fun _ _ hDoc => nodeOf_alike hDoc).bind fun nodes' nodes hNodes => ?_
  rw [bind_assoc, bind_assoc, hRel]
  refine (Except.Rel.mapM h fun _ _ hDoc => edgesOf_alike hDoc).bind fun es' es hEdges => ?_
  have hLoop : (es'.flatten.foldlM (keepEdge P) []) = es.flatten.foldlM (keepEdge P) [] := by
    refine Except.Rel.eq (Except.Rel.foldlM (List.rel_flatten hEdges)
      (fun kept kept' e' e hKept he => ?_) rfl)
    subst hKept
    rw [keepEdge_alike P kept he]
    exact Except.Rel.refl (fun _ => rfl) _
  show Except.Rel GraphAlike (es'.flatten.foldlM (keepEdge P) [] >>= _)
    (es.flatten.foldlM (keepEdge P) [] >>= _)
  rw [hLoop]
  refine (Except.Rel.refl (R := Eq) (fun _ => rfl) _).bind fun edges' edges hEq => .ok ?_
  exact
    { nodes := forall₂_map_eq (fun _ _ hNode => hNode) hNodes
      edges := hEq
      hints := hHints }

-- ------ Validation

theorem checkAliases_alike (h : List.Forall₂ (Alike L) docs' docs) (diag : Diagnostics) :
    checkAliases L docs' diag = checkAliases L docs diag := by
  refine Except.Rel.eq (Except.Rel.foldlM h (fun s s' doc' doc hs hDoc => ?_) rfl)
  subst hs
  have hCheck : checkAlias doc' = checkAlias doc := by
    funext s a
    rw [checkAlias, checkAlias, hDoc.id_eq, hDoc.relPath_eq]
  rw [hDoc.candidates_eq, hCheck]
  exact Except.Rel.refl (fun _ => rfl) _

theorem exceedsHard_arranged (hInt : ∀ v, L.int (arranged v) = L.int v) (fm : Mapping) :
    exceedsHard L fm.arranged = exceedsHard L fm := by
  have hNull : ∀ v, arranged v = .null ↔ v = .null := by
    intro v
    cases v <;> simp [arranged]
  have hGiven : ∀ fm : Mapping, fm.get "token_budget" ≠ .null →
      fm.get "token_budget_hard" ≠ .null → exceedsHard L fm =
        (L.int (fm.get "token_budget") >>= fun tb =>
          L.int (fm.get "token_budget_hard") >>= fun th => .ok (decide (tb > th))) := by
    intro fm hBudget hHard
    unfold exceedsHard
    split
    · contradiction
    · contradiction
    · rfl
  have hMissing : ∀ fm : Mapping, (fm.get "token_budget" = .null ∨
      fm.get "token_budget_hard" = .null) → exceedsHard L fm = .ok false := by
    intro fm h
    unfold exceedsHard
    split
    · rfl
    · rfl
    · rcases h with h | h <;> contradiction
  have hKeep : ∀ k : String, fm.arranged.get k = .null ↔ fm.get k = .null := fun k => by
    rw [Mapping.get_arranged, hNull]
  by_cases h : fm.get "token_budget" = .null ∨ fm.get "token_budget_hard" = .null
  · rw [hMissing fm h, hMissing fm.arranged (h.imp (hKeep _).mpr (hKeep _).mpr)]
  · obtain ⟨hBudget, hHard⟩ := not_or.mp h
    rw [hGiven fm hBudget hHard, hGiven fm.arranged (mt (hKeep _).mp hBudget)
      (mt (hKeep _).mp hHard), Mapping.get_arranged, Mapping.get_arranged, hInt, hInt]

theorem checkMeta_alike (hInt : ∀ v, L.int (arranged v) = L.int v) {doc' doc : DocumentNode}
    (h : Alike L doc' doc) (diag : Diagnostics) : checkMeta L diag doc' = checkMeta L diag doc := by
  rcases h with rfl | ⟨rfl, -⟩
  · rfl
  · have hVisibility : (((doc.arranged.frontmatter.get? "visibility").getD
          (.str "internal".toList)).isKey "restricted".toList) =
        (((doc.frontmatter.get? "visibility").getD (.str "internal".toList)).isKey
          "restricted".toList) := by
      rw [DocumentNode.arranged, Mapping.get?_arranged]
      cases doc.frontmatter.get? "visibility" with
      | none => rfl
      | some v => exact Yaml.isKey_arranged _ v
    have hTruthy : ∀ k : String, (doc.arranged.frontmatter.get k).truthy =
        (doc.frontmatter.get k).truthy := by
      simp [DocumentNode.arranged]
    have hExceeds : exceedsHard L doc.arranged.frontmatter = exceedsHard L doc.frontmatter :=
      exceedsHard_arranged hInt doc.frontmatter
    simp only [checkMeta, hVisibility, hTruthy, hExceeds]
    rfl

theorem foldl_checkOrphan_alike {graph' graph : Graph} (hEdges : graph'.edges = graph.edges)
    (h : List.Forall₂ (Alike L) docs' docs) (diag : Diagnostics) :
    docs'.foldl (checkOrphan graph') diag = docs.foldl (checkOrphan graph) diag := by
  refine List.rel_foldl (P := Eq) (R := Alike L) ?_ rfl h
  rintro diag _ rfl doc' doc hDoc
  rw [hDoc.eq_frontmatter, checkOrphan, checkOrphan, hEdges]

theorem validateBundle_alike (hInt : ∀ v, L.int (arranged v) = L.int v)
    (h : List.Forall₂ (Alike L) docs' docs) {graph' graph : OptimizedGraph}
    (hGraph : GraphAlike graph' graph) (aliases : Dict Text Text) (diag : Diagnostics) :
    validateBundle L docs' graph'.toGraph aliases diag =
      validateBundle L docs graph.toGraph aliases diag := by
  have hIds : docs'.map DocumentNode.id = docs.map DocumentNode.id :=
    forall₂_map_eq (fun _ _ hDoc => hDoc.id_eq) h
  have hNodes : graph'.nodes.map Node.id = graph.nodes.map Node.id := by
    have hMap := congrArg (List.map Node.id) hGraph.nodes
    rw [List.map_map, List.map_map] at hMap
    exact hMap
  have hMeta : ∀ diag, docs'.foldlM (checkMeta L) diag = docs.foldlM (checkMeta L) diag := by
    intro diag
    refine Except.Rel.eq (Except.Rel.foldlM h (fun d d' doc' doc hd hDoc => ?_) rfl)
    subst hd
    rw [checkMeta_alike hInt hDoc]
    exact Except.Rel.refl (fun _ => rfl) _
  simp only [validateBundle, hIds, hNodes, hMeta, hGraph.edges, checkAliases_alike h,
    foldl_checkOrphan_alike hGraph.edges h]

-- ------ The whole build

/-- Two builds have the same documents and graph, up to the order of keys in frontmatters, and the
same alias map and diagnostics. -/
structure BuildAlike (b' b : Build) : Prop where
  docs : b'.docs.map DocumentNode.arranged = b.docs.map DocumentNode.arranged
  graph : GraphAlike b'.graph b.graph
  aliases : b'.aliases = b.aliases
  diag : b'.diag = b.diag

theorem assemble_alike (P : Platform) (hInt : ∀ v, L.int (arranged v) = L.int v)
    (ontology : Ontology) (h : List.Forall₂ (Alike L) docs' docs) (diag : Diagnostics) :
    Except.Rel BuildAlike (assemble L P ontology docs' diag) (assemble L P ontology docs diag) := by
  unfold assemble
  rw [buildAliasMap_alike h]
  refine (Except.Rel.refl (R := Eq) (fun _ => rfl) _).bind fun aliases _ hAliases => ?_
  subst hAliases
  rw [checkOntology_alike ontology h]
  refine (Except.Rel.refl (R := Eq) (fun _ => rfl) _).bind fun diag _ hDiag => ?_
  subst hDiag
  rw [← bind_assoc, ← bind_assoc]
  refine (graph_alike P h aliases).bind fun graph' graph hGraph => ?_
  rw [validateBundle_alike hInt h hGraph]
  refine (Except.Rel.refl (R := Eq) (fun _ => rfl) _).bind fun diag _ hDiag => .ok ?_
  exact
    { docs := forall₂_map_eq (fun _ _ hDoc => hDoc.arranged_eq) h
      graph := hGraph
      aliases := rfl
      diag := hDiag }

end Neuroswarm.Okf
