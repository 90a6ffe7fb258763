/-!
# Suites

The functional suites of the bench, by name.
-/

namespace VectorBench

inductive Suite where
  | fixed
  | compare
  | equivalence
  | interactive
  | opvv
  | add
  | mask
  | mm
  | all
deriving DecidableEq, Repr

namespace Suite

def every : List Suite :=
  [.fixed, .compare, .equivalence, .interactive, .opvv, .add, .mask, .mm, .all]

/-- The single suites that ask for nothing, in the order in which they run together. -/
def unattended : List Suite :=
  [.fixed, .compare, .equivalence, .opvv, .add, .mask, .mm]

def name : Suite → String
  | .fixed => "fixed"
  | .compare => "compare"
  | .equivalence => "equivalence"
  | .interactive => "interactive"
  | .opvv => "opvv"
  | .add => "add"
  | .mask => "mask"
  | .mm => "mm"
  | .all => "all"

def ofName? (name : String) : Option Suite :=
  every.find? (·.name = name)

theorem ofName?_name (suite : Suite) : ofName? suite.name = some suite := by
  cases suite <;> rfl

end Suite

end VectorBench
