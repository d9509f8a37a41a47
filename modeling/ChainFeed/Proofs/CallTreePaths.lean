import ChainFeed.Projection.Trace
import ChainFeed.Proofs.Positions

/-!
# Paths in call trees

A path leads from the root of a call tree to one of its frames by the numbers of the
calls on the way.  The depth-first traversal visits the frame at each path once, in the
lexicographic order of the paths.
-/

namespace ChainFeed

/-- The kind of trace that a call becomes, by the type that the debug tracer gives it. -/
def TraceKind.ofCallType? : String → Option TraceKind
  | "CREATE" | "CREATE2" => some .create
  | "CALL" | "CALLCODE" | "DELEGATECALL" | "STATICCALL" | "INVALID" => some .call
  | "SELFDESTRUCT" => some .suicide
  | _ => none

/-- A path comes strictly before its proper extensions. -/
theorem lt_append_cons (path : List UInt32) (number : UInt32) (rest : List UInt32) :
    path < path ++ number :: rest := by
  have extended : path ++ [] < path ++ number :: rest :=
    List.append_left_lt (List.nil_lt_cons number rest)
  rwa [List.append_nil] at extended

theorem append_cons_lt {left right : UInt32} (below : left < right)
    (path first second : List UInt32) : path ++ left :: first < path ++ right :: second :=
  List.append_left_lt (List.cons_lt_cons_iff.mpr (.inl below))

theorem ofNat_lt_ofNat {left right : Nat} (below : left < right) (small : right < UInt32.size) :
    UInt32.ofNat left < UInt32.ofNat right := by
  rw [UInt32.lt_iff_toNat_lt, UInt32.toNat_ofNat_of_lt' (below.trans small),
    UInt32.toNat_ofNat_of_lt' small]
  exact below

namespace Raw.CallTree

/-! ## Frames -/

/-- The frame that a path leads to. -/
def at? : List UInt32 → CallTree → Option CallTree
  | [], tree => some tree
  | number :: path, tree => tree.calls[number.toNat]?.bind (at? path)

theorem at?_cons_eq_some_iff {number : UInt32} {path : List UInt32} {tree frame : CallTree} :
    at? (number :: path) tree = some frame ↔
      ∃ called, tree.calls[number.toNat]? = some called ∧ at? path called = some frame := by
  rw [at?, Option.bind_eq_some_iff]

/-- A path leads on from where its first part leads to. -/
theorem at?_append (path rest : List UInt32) (tree : CallTree) :
    at? (path ++ rest) tree = (at? path tree).bind (at? rest) := by
  induction path generalizing tree with
  | nil => rfl
  | cons number path ih =>
      rw [List.cons_append, at?, at?, Option.bind_assoc]
      exact congrArg _ (funext ih)

/-- Trees of calls of known types, each of which makes fewer calls than 32 bits can
number. -/
inductive Regular : CallTree → Prop
  | node {call : Call} {calls : List CallTree}
      (known : (TraceKind.ofCallType? call.type).isSome) (numbered : calls.length < UInt32.size)
      (below : ∀ tree ∈ calls, Regular tree) : Regular (.node call calls)

/-- The root of a regular tree does not stop at once. -/
theorem Regular.runs {tree : CallTree} (regular : tree.Regular) : tree.call.type ≠ "STOP" := by
  cases regular with
  | node known numbered below =>
      intro stops
      rw [CallTree.call] at stops
      rw [stops] at known
      exact absurd known (by decide)

theorem Regular.known {tree : CallTree} (regular : tree.Regular) :
    (TraceKind.ofCallType? tree.call.type).isSome := by
  cases regular with
  | node known numbered below => exact known

theorem Regular.numbered {tree : CallTree} (regular : tree.Regular) :
    tree.calls.length < UInt32.size := by
  cases regular with
  | node known numbered below => exact numbered

theorem Regular.at? {tree : CallTree} (regular : tree.Regular) {path : List UInt32}
    {frame : CallTree} (found : tree.at? path = some frame) : frame.Regular := by
  induction path generalizing tree with
  | nil =>
      cases found
      exact regular
  | cons number path ih =>
      obtain ⟨called, isCalled, later⟩ := at?_cons_eq_some_iff.mp found
      cases regular with
      | node known numbered below => exact ih (below called (List.mem_of_getElem? isCalled)) later

/-! ## Traversal -/

/-- The visit of a frame at a path. -/
def visit (path : List UInt32) (frame : CallTree) : Visit :=
  ⟨path, frame.call, frame.calls.length⟩

theorem visitsFrom_eq (path : List UInt32) (start : Nat) (trees : List CallTree) :
    visitsFrom path start trees =
      (trees.zipIdx start).flatMap fun entry =>
        visits (path ++ [UInt32.ofNat entry.2]) entry.1 := by
  induction trees generalizing start with
  | nil => rw [visitsFrom, List.zipIdx_nil, List.flatMap_nil]
  | cons tree rest ih => rw [visitsFrom, List.zipIdx_cons, List.flatMap_cons, ih]

theorem visits_node (path : List UInt32) (call : Call) (calls : List CallTree) :
    visits path (.node call calls) =
      visit path (.node call calls) ::
        calls.zipIdx.flatMap fun entry => visits (path ++ [UInt32.ofNat entry.2]) entry.1 := by
  rw [visits, visitsFrom_eq]
  rfl

/-- The first visit is that of the root. -/
theorem visits_eq_cons (path : List UInt32) (tree : CallTree) :
    tree.visits path = tree.visit path :: (tree.visits path).tail := by
  cases tree with
  | node call calls => rw [visits_node, List.tail_cons]

/-- The traversal visits the frames in the tree, each at the path that leads to it. -/
theorem mem_visits {tree : CallTree} (regular : tree.Regular) {path : List UInt32}
    {visited : Visit} :
    visited ∈ tree.visits path ↔
      ∃ below frame, tree.at? below = some frame ∧ visited = frame.visit (path ++ below) := by
  induction regular generalizing path with
  | @node call calls known numbered below ih =>
      rw [visits_node, List.mem_cons, List.mem_flatMap]
      constructor
      · rintro (rfl | ⟨⟨called, position⟩, isEntry, member⟩)
        · exact ⟨[], _, rfl, by rw [List.append_nil]⟩
        · rw [List.mem_zipIdx_iff_getElem?] at isEntry
          obtain ⟨rest, frame, found, rfl⟩ :=
            (ih called (List.mem_of_getElem? isEntry)).mp member
          have inBounds := (List.getElem?_eq_some_iff.mp isEntry).1
          refine ⟨UInt32.ofNat position :: rest, frame, ?_, by rw [List.append_assoc]; rfl⟩
          rw [at?_cons_eq_some_iff, UInt32.toNat_ofNat_of_lt' (inBounds.trans numbered)]
          exact ⟨called, isEntry, found⟩
      · rintro ⟨_ | ⟨number, rest⟩, frame, found, rfl⟩
        · cases found
          exact .inl (by rw [List.append_nil])
        · obtain ⟨called, isCalled, found⟩ := at?_cons_eq_some_iff.mp found
          refine .inr ⟨(called, number.toNat), List.mem_zipIdx_iff_getElem?.mpr isCalled, ?_⟩
          refine (ih called (List.mem_of_getElem? isCalled)).mpr ⟨rest, frame, found, ?_⟩
          rw [UInt32.ofNat_toNat, List.append_assoc]
          rfl

/-- Whatever is visited below a call of several has the number of that call in its path. -/
theorem path_of_mem_visits {calls : List CallTree} (regular : ∀ tree ∈ calls, Regular tree)
    {path : List UInt32} {called : CallTree} {position : Nat} {visited : Visit}
    (isEntry : (called, position) ∈ calls.zipIdx)
    (member : visited ∈ called.visits (path ++ [UInt32.ofNat position])) :
    position < calls.length ∧ ∃ rest, visited.path = path ++ UInt32.ofNat position :: rest := by
  rw [List.mem_zipIdx_iff_getElem?] at isEntry
  obtain ⟨inBounds, -⟩ := List.getElem?_eq_some_iff.mp isEntry
  obtain ⟨rest, frame, -, rfl⟩ :=
    (mem_visits (regular called (List.mem_of_getElem? isEntry))).mp member
  exact ⟨inBounds, rest, by simp [visit]⟩

/-- The traversal visits paths in strictly ascending order. -/
theorem visits_ascending {tree : CallTree} (regular : tree.Regular) (path : List UInt32) :
    (tree.visits path).Pairwise fun left right => left.path < right.path := by
  induction regular generalizing path with
  | @node call calls known numbered below ih =>
      rw [visits_node, List.pairwise_cons, List.pairwise_flatMap]
      -- The root comes first, and of two calls that it makes the number decides.
      refine ⟨?_, ?_, ?_⟩
      · intro visited member
        obtain ⟨⟨called, position⟩, isEntry, member⟩ := List.mem_flatMap.mp member
        obtain ⟨-, rest, isPath⟩ := path_of_mem_visits below isEntry member
        rw [isPath]
        exact lt_append_cons path _ rest
      · intro ⟨called, position⟩ isEntry
        exact ih called (List.fst_mem_of_mem_zipIdx isEntry) _
      · refine (zipIdx_ascending calls).imp_of_mem ?_
        intro ⟨left, leftPosition⟩ ⟨right, rightPosition⟩ isLeft isRight earlier visited member
          later laterMember
        obtain ⟨-, first, isPath⟩ := path_of_mem_visits below isLeft member
        obtain ⟨inBounds, second, isLaterPath⟩ := path_of_mem_visits below isRight laterMember
        rw [isPath, isLaterPath]
        exact append_cons_lt (ofNat_lt_ofNat earlier (inBounds.trans numbered)) path first second

/-- The visits after the first are those of the frames strictly below the root. -/
theorem mem_tail_visits {tree : CallTree} (regular : tree.Regular) {path : List UInt32}
    {visited : Visit} :
    visited ∈ (tree.visits path).tail ↔
      ∃ below frame, below ≠ [] ∧ tree.at? below = some frame ∧
        visited = frame.visit (path ++ below) := by
  have ascending := visits_ascending regular path
  rw [visits_eq_cons, List.pairwise_cons] at ascending
  constructor
  · intro member
    obtain ⟨below, frame, found, rfl⟩ := (mem_visits regular).mp (List.mem_of_mem_tail member)
    refine ⟨below, frame, ?_, found, rfl⟩
    rintro rfl
    rw [List.append_nil] at member
    have after : path < path := ascending.1 _ member
    exact List.lt_irrefl path after
  · rintro ⟨below, frame, nonempty, found, rfl⟩
    have member : frame.visit (path ++ below) ∈ tree.visits path :=
      (mem_visits regular).mpr ⟨below, frame, found, rfl⟩
    rw [visits_eq_cons, List.mem_cons] at member
    refine member.resolve_left ?_
    intro same
    have samePath : path ++ below = path := congrArg Visit.path same
    exact nonempty (List.append_right_eq_self.mp samePath)

end Raw.CallTree

end ChainFeed
