/-!
# Filters

A filter is a tree of conditions joined by `and` and `or`.  The type of the conditions is open:
they are conditions as they were written, or compiled ones.

A node without any condition below it says nothing.  As a whole filter it lets everything pass,
and inside another filter it is passed over, so it neither satisfies an `or` nor fails an `and`.
The conditions of a node are tested in their order and then its nested filters, up to the first
answer that settles the node.
-/

namespace RecordQuery

/-- How the parts of a filter are joined. -/
inductive Connective where
  | and | or
deriving DecidableEq, Repr

/-- The answer of one part that settles the whole. -/
def Connective.settling : Connective → Bool
  | and => false
  | or => true

/-- A tree of conditions. -/
inductive Filter (α : Type) where
  | node (connective : Connective) (conditions : List α) (filters : List (Filter α))

namespace Filter

/-- The filter that joins nothing by `and`. -/
def empty : Filter α := .node .and [] []

/-- The connective at the top. -/
def connective : Filter α → Connective
  | .node c _ _ => c

/-- Adds conditions behind those at the top. -/
def withConditions : Filter α → List α → Filter α
  | .node c cs fs, more => .node c (cs ++ more) fs

/-! ## Conditions -/

mutual

/-- No condition stands in the filter. -/
def isEmpty : Filter α → Bool
  | .node _ cs fs => cs.isEmpty && allEmpty fs

/-- No condition stands in any of the filters. -/
def allEmpty : List (Filter α) → Bool
  | [] => true
  | f :: fs => f.isEmpty && allEmpty fs

end

mutual

/-- All conditions, those of a node before those of its nested filters. -/
def allConditions : Filter α → List α
  | .node _ cs fs => cs ++ conditionsOfAll fs

/-- All conditions of some filters. -/
def conditionsOfAll : List (Filter α) → List α
  | [] => []
  | f :: fs => f.allConditions ++ conditionsOfAll fs

end

mutual

/-- Turns every condition into another, in the order of `allConditions`, up to the first failure. -/
def mapM (f : α → Except ε β) : Filter α → Except ε (Filter β)
  | .node c cs fs => do
    let cs ← cs.mapM f
    let fs ← mapAllM f fs
    return .node c cs fs

/-- Turns every condition of some filters into another. -/
def mapAllM (f : α → Except ε β) : List (Filter α) → Except ε (List (Filter β))
  | [] => return []
  | g :: gs => do
    let g ← mapM f g
    let gs ← mapAllM f gs
    return g :: gs

end

/-! ## Evaluation -/

/-- Some condition gives the answer; those behind the first one are not tested. -/
def reaches (answer : Bool) (test : α → Except ε Bool) : List α → Except ε Bool
  | [] => return false
  | a :: as => do if (← test a) = answer then return true else reaches answer test as

mutual

/-- The filter holds, given a test of single conditions. -/
def holds (test : α → Except ε Bool) : Filter α → Except ε Bool
  | .node c cs fs => do
    if cs.isEmpty && allEmpty fs then return true
    if ← reaches c.settling test cs then return c.settling
    if ← nestedReach c.settling test fs then return c.settling
    return !c.settling

/-- Some filter that has conditions gives the answer; those behind the first one are not tested. -/
def nestedReach (answer : Bool) (test : α → Except ε Bool) : List (Filter α) → Except ε Bool
  | [] => return false
  | f :: fs => do
    if f.isEmpty then nestedReach answer test fs
    else if (← holds test f) = answer then return true
    else nestedReach answer test fs

end

end Filter

end RecordQuery
