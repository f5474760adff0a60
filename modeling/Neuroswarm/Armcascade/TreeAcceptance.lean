import Mathlib.Data.List.MinMax
import Mathlib.Algebra.Order.Group.Int

/-!
# Greedy acceptance of a draft tree

`TreeBuilder` and `TreeAcceptor`. The rows of the target are taken from the front, so the
rows left are those from the depth on. Log probabilities are any type with a comparison;
`coin q p` is the draw against `min(1, exp(q - p))` that the other mode makes.

* `WellFormed` — the children lists and the parent indices of a built tree agree.
* `Longest.better` — of two longest ones, the longer is the longest of both kinds;
  `longest_tryFrom` — so the search from a node finds a longest path that follows the rows.
* `followsTarget_of_built` — so `accept` follows the greedy output of the target.
-/

namespace Neuroswarm.Armcascade.Tree

variable {P R : Type}

structure Node (P : Type) where
  tokenId : ℤ
  parentIdx : ℤ
  logprob : P
  deriving Repr, DecidableEq

structure TokenTree (P : Type) where
  nodes : List (Node P) := []
  children : List (List ℕ) := []
  texts : List String := []
  deriving Repr, DecidableEq

/-- An entry of a row of the target: `(token_id, logprob, text)`. -/
structure TopEntry (P : Type) where
  tokenId : ℤ
  logprob : P
  text : String
  deriving Repr, DecidableEq

structure AcceptedPath where
  nodeIndices : List ℕ := []
  tokenIds : List ℤ := []
  texts : List String := []
  depth : ℕ := 0
  deriving Repr, DecidableEq

structure TreeAcceptResult where
  path : AcceptedPath := {}
  bonus : String := ""
  bonusTokenId : Option ℤ := none
  deriving Repr, DecidableEq

/-- `text or str(token_id)`. -/
def orToken (text : String) (tokenId : ℤ) : String :=
  if text = "" then toString tokenId else text

-- ------ TreeBuilder

namespace TokenTree

def addNode (t : TokenTree P) (tokenId parentIdx : ℤ) (logprob : P) (text : String) :
    TokenTree P where
  nodes := t.nodes ++ [⟨tokenId, parentIdx, logprob⟩]
  children := t.children ++ [[]]
  texts := t.texts ++ [orToken text tokenId]

def addRoot (t : TokenTree P) (tokenId : ℤ) (logprob : P) (text : String) : ℕ × TokenTree P :=
  (t.nodes.length, t.addNode tokenId (-1) logprob text)

/-- One pass of the loop of `extend`. -/
def addChild (t : TokenTree P) (parentIdx : ℕ) (tokenId : ℤ) (logprob : P) (text : String) :
    TokenTree P :=
  let idx := t.nodes.length
  let t := t.addNode tokenId parentIdx logprob text
  { t with children := t.children.modify parentIdx (· ++ [idx]) }

/-- `extend`, with the log probability 0 and the text `""` for those that are not given. -/
def extend [Zero P] (t : TokenTree P) (parentIdx : ℤ) (tokenIds : List ℤ) (logprobs : List P)
    (texts : Option (List String)) : Except String (List ℕ × TokenTree P) :=
  if parentIdx < 0 ∨ t.nodes.length ≤ parentIdx then
    .error ("parent_idx out of range: " ++ toString parentIdx)
  else
    .ok (tokenIds.zipIdx.foldl (fun (created, t) (tokenId, i) =>
      (created ++ [t.nodes.length], t.addChild parentIdx.toNat tokenId (logprobs.getD i 0)
        ((texts.getD []).getD i ""))) ([], t))

/-- The trees that `TreeBuilder` builds. -/
inductive Built [Zero P] : TokenTree P → Prop
  | empty : Built {}
  | addRoot {t : TokenTree P} (tokenId : ℤ) (logprob : P) (text : String) (h : Built t) :
      Built (t.addRoot tokenId logprob text).2
  | extend {t t' : TokenTree P} {parentIdx : ℤ} {tokenIds : List ℤ} {logprobs : List P}
      {texts : Option (List String)} {created : List ℕ} (h : Built t)
      (hExtend : t.extend parentIdx tokenIds logprobs texts = .ok (created, t')) : Built t'

def kids (t : TokenTree P) (i : ℕ) : List ℕ := t.children.getD i []

def roots (t : TokenTree P) : List ℕ :=
  (t.nodes.zipIdx.filter fun (node, _) => node.parentIdx < 0).map (·.2)

-- ------ Paths

variable (t : TokenTree P)

def token? (i : ℕ) : Option ℤ := t.nodes[i]?.map (·.tokenId)

def IsRoot (i : ℕ) : Prop := ∃ node, t.nodes[i]? = some node ∧ node.parentIdx < 0

def IsChild (i j : ℕ) : Prop := ∃ node, t.nodes[j]? = some node ∧ node.parentIdx = i

/-- A path from a root, each node the parent of the next. -/
def IsRootPath (ns : List ℕ) : Prop := (∀ i ∈ ns.head?, t.IsRoot i) ∧ ns.IsChain t.IsChild

def pathOf (ns : List ℕ) : AcceptedPath where
  nodeIndices := ns
  tokenIds := ns.filterMap t.token?
  texts := ns.filterMap fun i => t.nodes[i]?.map fun node =>
    t.texts.getD i (toString node.tokenId)
  depth := ns.length

end TokenTree

-- ------ TreeAcceptor

/-- `max(topn, key=logprob)`: the first of the greatest. -/
def argmaxTopn [Preorder P] [DecidableLT P] (topn : List (TopEntry P)) : Option (TopEntry P) :=
  topn.argmax (·.logprob)

def findTopEntry (topn : List (TopEntry P)) (tokenId : ℤ) : Option (TopEntry P) :=
  topn.find? (·.tokenId = tokenId)

section
variable [Preorder P] [DecidableLT P]

def acceptToken (coin : P → P → R → Bool × R) (greedy : Bool) (tokenId : ℤ) (draftLogprob : P)
    (topn : List (TopEntry P)) (rng : R) : Bool × R :=
  if greedy then
    match argmaxTopn topn with
    | none => (false, rng)
    | some argmax => (argmax.tokenId = tokenId, rng)
  else
    match findTopEntry topn tokenId with
    | none => (false, rng)
    | some entry => coin entry.logprob draftLogprob rng

/-- The longer one, the first of two of one depth. -/
def better (best cand : AcceptedPath) : AcceptedPath :=
  if cand.depth > best.depth then cand else best

/-- Search from each of `starts` in turn, and keep the best path. -/
def bestOf (search : ℕ → R → AcceptedPath × R) (starts : List ℕ) (best : AcceptedPath) (rng : R) :
    AcceptedPath × R :=
  starts.foldl (fun (best, rng) start =>
    let (cand, rng) := search start rng
    (better best cand, rng)) (best, rng)

namespace TokenTree

variable (t : TokenTree P) (coin : P → P → R → Bool × R)

def push (path : AcceptedPath) (idx : ℕ) (node : Node P) : AcceptedPath where
  nodeIndices := path.nodeIndices ++ [idx]
  tokenIds := path.tokenIds ++ [node.tokenId]
  texts := path.texts ++ [t.texts.getD idx (toString node.tokenId)]
  depth := path.nodeIndices.length + 1

/-- `_try_from`: `path` is what the call carries as its three prefixes. -/
def tryFrom (greedy : Bool) : List (List (TopEntry P)) → AcceptedPath → ℕ → R → AcceptedPath × R
  | [], path, _, rng => (path, rng)
  | topn :: rows, path, idx, rng =>
    match t.nodes[idx]? with
    | none => (path, rng) -- an IndexError, which no index of a built tree raises
    | some node =>
      match acceptToken coin greedy node.tokenId node.logprob topn rng with
      | (false, rng) => (path, rng)
      | (true, rng) =>
        let current := t.push path idx node
        bestOf (fun child rng => tryFrom greedy rows current child rng) (t.kids idx) current rng

end TokenTree

/-- The top entry of the row as the bonus, if the row has one. -/
def TreeAcceptResult.offer (r : TreeAcceptResult) (topn : List (TopEntry P)) : TreeAcceptResult :=
  match argmaxTopn topn with
  | none => r
  | some top1 => { r with
    bonusTokenId := some top1.tokenId
    bonus := orToken top1.text top1.tokenId }

/-- The first block about the bonus: at a leaf, or after a token. -/
def TreeAcceptResult.offerAtLeaf (r : TreeAcceptResult) (t : TokenTree P)
    (rows : List (List (TopEntry P))) : TreeAcceptResult :=
  match rows[r.path.depth]? with
  | none => r
  | some topn =>
    let atLeaf := r.path.nodeIndices.getLast?.all fun last => (t.kids last).isEmpty
    if 0 < r.path.depth ∨ atLeaf then r.offer topn else r

/-- The second block about the bonus. -/
def TreeAcceptResult.offerAfter (r : TreeAcceptResult) (rows : List (List (TopEntry P))) :
    TreeAcceptResult :=
  if 0 < r.path.depth ∧ r.path.depth ≤ rows.length then
    match rows[r.path.depth]? with
    | none => r
    | some topn => r.offer topn
  else r

namespace TokenTree

variable (t : TokenTree P) (coin : P → P → R → Bool × R)

def accept (rows : List (List (TopEntry P))) (greedy : Bool) (rng : R) : TreeAcceptResult :=
  if t.nodes = [] ∨ rows = [] then {}
  else
    let path := (bestOf (fun root rng => t.tryFrom coin greedy rows {} root rng) t.roots {} rng).1
    (({ path } : TreeAcceptResult).offerAtLeaf t rows).offerAfter rows

-- ------ What it is for

/-- The greedy output of the target, up to the first empty row. -/
def greedyOutput : List (List (TopEntry P)) → List ℤ
  | [] => []
  | topn :: rows => match argmaxTopn topn with
    | none => []
    | some top1 => top1.tokenId :: greedyOutput rows

/-- The token at each depth is the argmax of the row of that depth. -/
def Follows : List (List (TopEntry P)) → List ℕ → Prop
  | _, [] => True
  | [], _ :: _ => False
  | topn :: rows, n :: ns =>
    (∃ top1, argmaxTopn topn = some top1 ∧ t.token? n = some top1.tokenId) ∧ Follows rows ns

/-- The path follows the target from a root, no other root path does so for longer, and it goes
on to a beginning of the greedy output. -/
structure FollowsTarget (rows : List (List (TopEntry P))) (r : TreeAcceptResult) : Prop where
  path : r.path = t.pathOf r.path.nodeIndices
  isRootPath : t.IsRootPath r.path.nodeIndices
  follows : t.Follows rows r.path.nodeIndices
  longest : ∀ ns, t.IsRootPath ns → t.Follows rows ns → ns.length ≤ r.path.depth
  beginning : r.path.tokenIds ++ r.bonusTokenId.toList <+: greedyOutput rows

/-- The bonus is the argmax of the row after the path, when there is one that is not empty. -/
def OffersBonus (rows : List (List (TopEntry P))) (r : TreeAcceptResult) : Prop :=
  ∀ topn, rows[r.path.depth]? = some topn → topn ≠ [] → ∃ top1, argmaxTopn topn = some top1 ∧
    r.bonusTokenId = some top1.tokenId ∧ r.bonus = orToken top1.text top1.tokenId

end TokenTree

end

namespace TokenTree

-- ------ Built trees

/-- The children of a node are the nodes that name it as their parent. -/
structure WellFormed (t : TokenTree P) : Prop where
  length_children : t.children.length = t.nodes.length
  mem_kids : ∀ i j, j ∈ t.kids i ↔ t.IsChild i j

variable {t : TokenTree P}

theorem kids_eq (t : TokenTree P) (i : ℕ) : t.kids i = (t.children[i]?).getD [] := by
  rw [kids, List.getD_eq_getElem?_getD]

theorem kids_addNode (tokenId parentIdx : ℤ) (logprob : P) (text : String) (i : ℕ) :
    (t.addNode tokenId parentIdx logprob text).kids i = t.kids i := by
  rw [kids_eq, kids_eq]
  show ((t.children ++ [[]])[i]?).getD [] = _
  rcases Nat.lt_trichotomy i t.children.length with h | h | h
  · rw [List.getElem?_append_left h]
  · rw [h, List.getElem?_concat_length, List.getElem?_eq_none le_rfl]
    rfl
  · have hLength : (t.children ++ [[]]).length ≤ i := by simp; omega
    rw [List.getElem?_eq_none hLength, List.getElem?_eq_none (Nat.le_of_lt h)]

theorem isChild_addNode (tokenId parentIdx : ℤ) (logprob : P) (text : String) {i j : ℕ} :
    (t.addNode tokenId parentIdx logprob text).IsChild i j ↔
      t.IsChild i j ∨ j = t.nodes.length ∧ parentIdx = i := by
  unfold IsChild addNode
  rcases Nat.lt_trichotomy j t.nodes.length with h | h | h
  · have hNe : j ≠ t.nodes.length := by omega
    simp [List.getElem?_append_left h, hNe]
  · subst h
    simp
  · have hNe : j ≠ t.nodes.length := by omega
    have hNode : t.nodes[j]? = none := List.getElem?_eq_none (Nat.le_of_lt h)
    rw [List.getElem?_eq_none (by rw [List.length_append, List.length_singleton]; omega), hNode]
    simp [hNe]

theorem WellFormed.addRoot (h : WellFormed t) (tokenId : ℤ) (logprob : P) (text : String) :
    WellFormed (t.addRoot tokenId logprob text).2 where
  length_children := by simp [TokenTree.addRoot, addNode, h.length_children]
  mem_kids i j := by
    have hNeg : (-1 : ℤ) ≠ i := by omega
    rw [TokenTree.addRoot, kids_addNode, isChild_addNode, h.mem_kids]
    simp [hNeg]

theorem WellFormed.kids_addChild (h : WellFormed t) {parentIdx : ℕ}
    (hParent : parentIdx < t.nodes.length) (tokenId : ℤ) (logprob : P) (text : String) (i : ℕ) :
    (t.addChild parentIdx tokenId logprob text).kids i =
      if parentIdx = i then t.kids i ++ [t.nodes.length] else t.kids i := by
  rw [← kids_addNode (t := t) tokenId parentIdx logprob text i, kids_eq, kids_eq]
  show (((t.addNode tokenId parentIdx logprob text).children.modify parentIdx
    (· ++ [t.nodes.length]))[i]?).getD [] = _
  rw [List.getElem?_modify]
  by_cases hEq : parentIdx = i
  · subst hEq
    have hLt : parentIdx < (t.addNode tokenId parentIdx logprob text).children.length := by
      simp [addNode, h.length_children]
      omega
    rw [List.getElem?_eq_getElem hLt]
    simp
  · cases (t.addNode tokenId parentIdx logprob text).children[i]? <;> simp [hEq]

theorem WellFormed.addChild (h : WellFormed t) {parentIdx : ℕ}
    (hParent : parentIdx < t.nodes.length) (tokenId : ℤ) (logprob : P) (text : String) :
    WellFormed (t.addChild parentIdx tokenId logprob text) where
  length_children := by simp [TokenTree.addChild, addNode, h.length_children]
  mem_kids i j := by
    have hChild : (t.addChild parentIdx tokenId logprob text).IsChild i j ↔
        t.IsChild i j ∨ j = t.nodes.length ∧ (parentIdx : ℤ) = i :=
      isChild_addNode tokenId parentIdx logprob text
    rw [h.kids_addChild hParent, hChild, ← h.mem_kids]
    split
    · next hEq => simp [hEq]
    · next hNe =>
      have hCast : (parentIdx : ℤ) ≠ i := by omega
      simp [hCast]

theorem Built.wellFormed [Zero P] (h : Built t) : WellFormed t := by
  induction h with
  | empty => exact ⟨rfl, fun i j => by simp [kids, IsChild]⟩
  | addRoot tokenId logprob text _ ih => exact ih.addRoot tokenId logprob text
  | @extend t t' parentIdx tokenIds logprobs texts created _ hExtend ih =>
    unfold TokenTree.extend at hExtend
    split at hExtend
    · cases hExtend
    · next hRange =>
      -- the loop keeps the parent in range
      have hLoop : ∀ (pairs : List (ℤ × ℕ)) (created : List ℕ) (t : TokenTree P), WellFormed t →
          parentIdx.toNat < t.nodes.length →
          WellFormed (pairs.foldl (fun (created, t) (tokenId, i) =>
            (created ++ [t.nodes.length], t.addChild parentIdx.toNat tokenId (logprobs.getD i 0)
              ((texts.getD []).getD i ""))) (created, t)).2 := by
        intro pairs
        induction pairs with
        | nil => exact fun _ _ h _ => h
        | cons pair pairs ih =>
          intro created t h hParent
          refine ih _ _ (h.addChild hParent _ _ _) ?_
          simp only [TokenTree.addChild, addNode, List.length_append]
          omega
      have hFold := hLoop tokenIds.zipIdx [] t ih (by omega)
      rwa [Except.ok.inj hExtend] at hFold

theorem mem_roots {i : ℕ} : i ∈ t.roots ↔ t.IsRoot i := by
  simp only [roots, IsRoot, List.mem_map, List.mem_filter, Prod.exists,
    List.mk_mem_zipIdx_iff_getElem?, decide_eq_true_eq, exists_eq_right]

-- ------ Longest paths

/-- The path goes on from `base` by nodes that are `Good`, and by no fewer than others that are. -/
def Longest (t : TokenTree P) (base : List ℕ) (Good : List ℕ → Prop) (path : AcceptedPath) : Prop :=
  ∃ ns, path = t.pathOf (base ++ ns) ∧ Good ns ∧ ∀ ns', Good ns' → ns'.length ≤ ns.length

variable {base : List ℕ} {Good Good' : List ℕ → Prop} {path path' : AcceptedPath}

theorem Longest.congr (h : t.Longest base Good path) (hIff : ∀ ns, Good ns ↔ Good' ns) :
    t.Longest base Good' path := by
  obtain ⟨ns, hPath, hGood, hMax⟩ := h
  exact ⟨ns, hPath, (hIff ns).mp hGood, fun ns' h' => hMax ns' ((hIff ns').mpr h')⟩

theorem Longest.better (h : t.Longest base Good path) (h' : t.Longest base Good' path') :
    t.Longest base (fun ns => Good ns ∨ Good' ns) (better path path') := by
  obtain ⟨ns, rfl, hGood, hMax⟩ := h
  obtain ⟨ns', rfl, hGood', hMax'⟩ := h'
  have hDepth : ∀ l : List ℕ, (t.pathOf (base ++ l)).depth = base.length + l.length :=
    fun l => List.length_append
  unfold Tree.better
  rw [hDepth, hDepth]
  split
  · refine ⟨ns', rfl, .inr hGood', fun l hl => hl.elim (fun hl => ?_) (hMax' l)⟩
    have := hMax l hl
    omega
  · refine ⟨ns, rfl, .inl hGood, fun l hl => hl.elim (hMax l) fun hl => ?_⟩
    have := hMax' l hl
    omega

theorem longest_bestOf {search : ℕ → R → AcceptedPath × R} {starts : List ℕ}
    {GoodFrom : ℕ → List ℕ → Prop}
    (hSearch : ∀ start ∈ starts, ∀ rng, t.Longest base (GoodFrom start) (search start rng).1)
    (h : t.Longest base Good path) (rng : R) :
    t.Longest base (fun ns => Good ns ∨ ∃ start ∈ starts, GoodFrom start ns)
      (bestOf search starts path rng).1 := by
  unfold bestOf
  induction starts generalizing Good path rng with
  | nil => exact h.congr fun ns => by simp
  | cons start starts ih =>
    have hFirst := h.better (hSearch start List.mem_cons_self rng)
    refine (ih (fun s hs => hSearch s (List.mem_cons_of_mem _ hs)) hFirst _).congr fun ns => ?_
    rw [or_assoc, List.exists_mem_cons_iff]

theorem Longest.stop (hGood : Good []) (hStop : ∀ n ns, ¬ Good (n :: ns)) :
    t.Longest base Good (t.pathOf base) := by
  refine ⟨[], by rw [List.append_nil], hGood, fun ns hns => ?_⟩
  cases ns with
  | nil => rfl
  | cons n ns => exact absurd hns (hStop n ns)

theorem Longest.goOn {idx : ℕ} (h : t.Longest (base ++ [idx]) Good' path)
    (hIff : ∀ ns, Good (idx :: ns) ↔ Good' ns) (hHead : ∀ n ns, Good (n :: ns) → n = idx) :
    t.Longest base Good path := by
  obtain ⟨ns, hPath, hGood, hMax⟩ := h
  refine ⟨idx :: ns, ?_, (hIff ns).mpr hGood, fun ns' h' => ?_⟩
  · rw [hPath, List.append_assoc, List.singleton_append]
  · cases ns' with
    | nil => exact Nat.zero_le _
    | cons n ns' =>
      obtain rfl := hHead n ns' h'
      have := hMax ns' ((hIff ns').mp h')
      rw [List.length_cons, List.length_cons]
      omega

/-- A way down from `start`. -/
def PathFrom (t : TokenTree P) (start : ℕ) (ns : List ℕ) : Prop :=
  (∀ i ∈ ns.head?, i = start) ∧ ns.IsChain t.IsChild

theorem pathFrom_cons_iff (h : WellFormed t) {start n : ℕ} {ns : List ℕ} :
    t.PathFrom start (n :: ns) ↔
      n = start ∧ (ns = [] ∨ ∃ child ∈ t.kids start, t.PathFrom child ns) := by
  simp only [PathFrom, List.head?_cons, Option.mem_some_iff, forall_eq', h.mem_kids]
  refine and_congr_right fun hStart => ?_
  subst hStart
  cases ns with
  | nil => simp
  | cons child ns => simp [List.isChain_cons_cons]

theorem isRootPath_iff {ns : List ℕ} :
    t.IsRootPath ns ↔ ns = [] ∨ ∃ root ∈ t.roots, t.PathFrom root ns := by
  simp only [IsRootPath, PathFrom, mem_roots]
  cases ns with
  | nil => simp
  | cons n ns => simp

-- ------ The search

variable [Preorder P] [DecidableLT P] {coin : P → P → R → Bool × R}
  {rows : List (List (TopEntry P))}

omit [Preorder P] [DecidableLT P] in
theorem push_pathOf {idx : ℕ} {node : Node P} (h : t.nodes[idx]? = some node) :
    t.push (t.pathOf base) idx node = t.pathOf (base ++ [idx]) := by
  simp [push, pathOf, token?, h]

/-- **The search.** From a node it finds a longest way down that follows the rows. -/
theorem longest_tryFrom (h : WellFormed t) (base : List ℕ) (idx : ℕ) (rng : R) :
    t.Longest base (fun ns => t.PathFrom idx ns ∧ t.Follows rows ns)
      (t.tryFrom coin true rows (t.pathOf base) idx rng).1 := by
  have hNil : ∀ start, t.PathFrom start [] := fun start => ⟨by simp, List.IsChain.nil⟩
  induction rows generalizing base idx rng with
  | nil => exact .stop ⟨hNil idx, trivial⟩ fun n ns hGood => hGood.2
  | cons topn rows ih =>
    -- without a match at the node no path goes on
    have hStop : (∀ top1, argmaxTopn topn = some top1 → t.token? idx ≠ some top1.tokenId) →
        t.Longest base (fun ns => t.PathFrom idx ns ∧ t.Follows (topn :: rows) ns)
          (t.pathOf base) := by
      intro hDiffers
      refine .stop ⟨hNil idx, trivial⟩ ?_
      rintro n ns ⟨hFrom, ⟨top1, hTop, hToken⟩, -⟩
      obtain rfl := ((pathFrom_cons_iff h).mp hFrom).1
      exact hDiffers top1 hTop hToken
    unfold tryFrom
    cases hNode : t.nodes[idx]? with
    | none => exact hStop fun top1 _ => by simp [token?, hNode]
    | some node =>
      have hToken : t.token? idx = some node.tokenId := by rw [token?, hNode, Option.map_some]
      simp only [acceptToken, if_true]
      cases hTop : argmaxTopn topn with
      | none => exact hStop fun top1 h => by simp [hTop] at h
      | some top1 =>
        by_cases hEq : top1.tokenId = node.tokenId
        · simp only [hEq, decide_true]
          rw [push_pathOf hNode]
          have hHere : t.Longest (base ++ [idx]) (· = []) (t.pathOf (base ++ [idx])) :=
            .stop rfl fun n ns => List.cons_ne_nil n ns
          have hBest := longest_bestOf (fun child (_ : child ∈ t.kids idx) rng =>
            ih (base ++ [idx]) child rng) hHere rng
          refine hBest.goOn (fun ns => ?_) fun n ns hGood => ((pathFrom_cons_iff h).mp hGood.1).1
          have hFollows : t.Follows (topn :: rows) (idx :: ns) ↔ t.Follows rows ns :=
            and_iff_right ⟨top1, hTop, hToken.trans (congrArg some hEq.symm)⟩
          rw [pathFrom_cons_iff h, hFollows, and_iff_right rfl]
          by_cases hEnd : ns = []
          · simp [hEnd, Follows]
          · simp only [hEnd, false_or, ← and_assoc, exists_and_right]
        · simp only [hEq, decide_false]
          refine hStop fun top1' hTop' => ?_
          obtain rfl := Option.some.inj (hTop.symm.trans hTop')
          rw [hToken]
          exact fun hSame => hEq (Option.some.inj hSame).symm

-- ------ Acceptance

theorem follows_nil : t.Follows rows [] := by
  cases rows with
  | nil => trivial
  | cons topn rows => trivial

theorem follows_beginning {ns : List ℕ} {bonus : Option ℤ} (h : t.Follows rows ns)
    (hBonus : ∀ id, bonus = some id → ∃ topn top1, rows[ns.length]? = some topn ∧
      argmaxTopn topn = some top1 ∧ top1.tokenId = id) :
    ns.filterMap t.token? ++ bonus.toList <+: greedyOutput rows := by
  induction ns generalizing rows with
  | nil =>
    cases bonus with
    | none => exact List.nil_prefix
    | some id =>
      obtain ⟨topn, top1, hRow, hTop, rfl⟩ := hBonus id rfl
      obtain ⟨rest, rfl⟩ : ∃ rest, rows = topn :: rest := by
        cases rows with
        | nil => cases hRow
        | cons row rest => exact ⟨rest, by rw [Option.some.inj hRow]⟩
      simp [greedyOutput, hTop]
  | cons n ns ih =>
    cases rows with
    | nil => exact h.elim
    | cons topn rows =>
      obtain ⟨⟨top1, hTop, hToken⟩, hRest⟩ := h
      rw [List.filterMap_cons_some hToken, List.cons_append, greedyOutput, hTop]
      exact List.cons_prefix_cons.mpr ⟨rfl, ih hRest hBonus⟩

omit [Preorder P] [DecidableLT P] in
theorem depth_pathOf (ns : List ℕ) : (t.pathOf ns).depth = ns.length := rfl

theorem offered_eq (ns : List ℕ) :
    (({ path := t.pathOf ns } : TreeAcceptResult).offerAtLeaf t rows).offerAfter rows =
      match rows[ns.length]? with
      | none => { path := t.pathOf ns }
      | some topn => ({ path := t.pathOf ns } : TreeAcceptResult).offer topn := by
  have hOffer : ∀ (r : TreeAcceptResult) (topn : List (TopEntry P)),
      (r.offer topn).path = r.path ∧ (r.offer topn).offer topn = r.offer topn := by
    intro r topn
    unfold TreeAcceptResult.offer
    cases argmaxTopn topn with
    | none => exact ⟨rfl, rfl⟩
    | some top1 => exact ⟨rfl, rfl⟩
  unfold TreeAcceptResult.offerAtLeaf
  rw [depth_pathOf]
  cases hRow : rows[ns.length]? with
  | none =>
    simp only [TreeAcceptResult.offerAfter, depth_pathOf, hRow, ite_self]
  | some topn =>
    have hLt : ns.length < rows.length := (List.getElem?_eq_some_iff.mp hRow).1
    by_cases hEmpty : ns = []
    · subst hEmpty
      simp [TreeAcceptResult.offerAfter, hOffer, pathOf]
    · have hPos : 0 < ns.length := List.length_pos_iff.mpr hEmpty
      simp only [hPos, true_or, if_true, TreeAcceptResult.offerAfter, hOffer, depth_pathOf,
        Nat.le_of_lt hLt, and_self, hRow]

theorem offered (ns : List ℕ) :
    let r := (({ path := t.pathOf ns } : TreeAcceptResult).offerAtLeaf t rows).offerAfter rows
    r.path = t.pathOf ns ∧ OffersBonus rows r ∧
      ∀ id, r.bonusTokenId = some id → ∃ topn top1, rows[ns.length]? = some topn ∧
        argmaxTopn topn = some top1 ∧ top1.tokenId = id := by
  intro r
  have hOffered : r = _ := offered_eq ns
  rw [hOffered]
  cases hRow : rows[ns.length]? with
  | none =>
    refine ⟨rfl, fun topn hTopn => ?_, nofun⟩
    exact absurd (hRow.symm.trans hTopn) (by simp)
  | some topn =>
    cases hTop : argmaxTopn topn with
    | none =>
      obtain rfl : topn = [] := List.argmax_eq_none.mp hTop
      refine ⟨by simp [TreeAcceptResult.offer, hTop], fun topn hTopn hNonempty => ?_, ?_⟩
      · simp only [TreeAcceptResult.offer, hTop, depth_pathOf] at hTopn
        exact absurd (Option.some.inj (hRow.symm.trans hTopn)).symm hNonempty
      · simp [TreeAcceptResult.offer, hTop]
    | some top1 =>
      simp only [TreeAcceptResult.offer, hTop]
      refine ⟨trivial, fun topn' hTopn _ => ?_, fun id hId => ?_⟩
      swap
      · exact ⟨topn, top1, rfl, hTop, Option.some.inj hId⟩
      obtain rfl := Option.some.inj (hRow.symm.trans hTopn)
      exact ⟨top1, hTop, rfl, rfl⟩

theorem followsTarget_empty (h : t.nodes = [] ∨ rows = []) : t.FollowsTarget rows {} where
  path := rfl
  isRootPath := ⟨nofun, .nil⟩
  follows := follows_nil
  longest ns hPath hFollows := by
    cases ns with
    | nil => exact le_rfl
    | cons n ns =>
      obtain ⟨node, hNode, -⟩ := hPath.1 n rfl
      rcases h with h | h
      · rw [h] at hNode
        cases hNode
      · subst h
        exact hFollows.elim
  beginning := List.nil_prefix

/-- **Greedy acceptance.** For every tree that `TreeBuilder` builds and every table of top entries,
the accepted path is a root path that follows the target, no root path follows it for longer, and
with the bonus it is a beginning of the greedy output. A tree with a node gets the bonus whenever
there is one; a tree without gets none. -/
theorem followsTarget_of_built [Zero P] (h : Built t) (rng : R) :
    t.FollowsTarget rows (t.accept coin rows true rng) ∧
      (t.nodes ≠ [] → OffersBonus rows (t.accept coin rows true rng)) ∧
      (t.nodes = [] → t.accept coin rows true rng = {}) := by
  unfold accept
  by_cases hEmpty : t.nodes = [] ∨ rows = []
  · rw [if_pos hEmpty]
    refine ⟨followsTarget_empty hEmpty, fun hNodes topn hTopn => ?_, fun _ => rfl⟩
    rw [hEmpty.resolve_left hNodes] at hTopn
    cases hTopn
  · rw [if_neg hEmpty]
    have hStart : t.Longest [] (· = []) {} := .stop rfl fun n ns => List.cons_ne_nil n ns
    have hSearch : ∀ root ∈ t.roots, ∀ rng,
        t.Longest [] (fun ns => t.PathFrom root ns ∧ t.Follows rows ns)
          (t.tryFrom coin true rows {} root rng).1 :=
      fun root _ rng => longest_tryFrom h.wellFormed [] root rng
    obtain ⟨ns, hPath, hGood, hMax⟩ := longest_bestOf hSearch hStart rng
    have hIff : ∀ ns, (ns = [] ∨ ∃ root ∈ t.roots, t.PathFrom root ns ∧ t.Follows rows ns) ↔
        t.IsRootPath ns ∧ t.Follows rows ns := by
      intro ns
      rw [isRootPath_iff]
      by_cases hEnd : ns = []
      · simp [hEnd, follows_nil]
      · simp only [hEnd, false_or, ← and_assoc, exists_and_right]
    obtain ⟨hRoot, hFollows⟩ := (hIff ns).mp hGood
    rw [hPath, List.nil_append]
    obtain ⟨hResult, hOffers, hBonus⟩ := @offered P t _ _ rows ns
    refine ⟨⟨?_, ?_, ?_, fun ns' hRoot' hFollows' => ?_, ?_⟩, fun _ => hOffers, fun hNodes => ?_⟩
    · rw [hResult]
      rfl
    · rw [hResult]
      exact hRoot
    · rw [hResult]
      exact hFollows
    · rw [hResult]
      exact hMax ns' ((hIff ns').mpr ⟨hRoot', hFollows'⟩)
    · rw [hResult]
      exact follows_beginning hFollows hBonus
    · exact absurd (.inl hNodes) hEmpty

local instance (priority := high) wholePreorder : Preorder ℤ := Int.instLinearOrder.toPreorder

local instance (priority := high) wholeZero : Zero ℤ := ⟨0⟩

def branches : TokenTree ℤ where
  nodes := [⟨1, -1, 0⟩, ⟨2, -1, 0⟩, ⟨3, 1, -1⟩, ⟨4, 1, 0⟩]
  children := [[], [2, 3], [], []]
  texts := ["one", "two", "three", "4"]

def targetRows : List (List (TopEntry ℤ)) :=
  [[⟨1, -3, "one"⟩, ⟨2, -1, "two"⟩], [⟨4, -1, "four"⟩], [⟨5, -2, ""⟩, ⟨6, -2, "six"⟩]]

theorem followsTarget_of_built_branches :
    branches.FollowsTarget targetRows
        (branches.accept (fun _ _ rng => (true, rng)) targetRows true ()) ∧
      (branches.accept (fun _ _ rng => (true, rng)) targetRows true ()).bonus = "5" := by
  have hBuilt : Built branches :=
    @Built.extend _ _ _ _ 1 [3, 4] [-1] (some ["three"]) _
      (.addRoot 2 0 "two" (.addRoot 1 0 "one" .empty)) rfl
  exact ⟨(followsTarget_of_built hBuilt ()).1, by decide⟩

/-- An empty tree is refused before the target is looked at, so it gets no bonus. -/
theorem no_bonus_without_nodes :
    Built ({} : TokenTree ℤ) ∧
      ¬ OffersBonus targetRows
        (({} : TokenTree ℤ).accept (fun _ _ rng => (true, rng)) targetRows true ()) := by
  refine ⟨.empty, fun h => ?_⟩
  obtain ⟨top1, -, hBonus, -⟩ := h _ rfl (List.cons_ne_nil _ _)
  cases hBonus

end TokenTree

end Neuroswarm.Armcascade.Tree
