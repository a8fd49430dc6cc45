import Formulary.Function.Aggregate
import Formulary.Function.Definition
import Formulary.Function.Rounding

/-! Functions by name, and those that are there from the start. -/
namespace Formulary

structure Registry where
  definitions : List Definition

namespace Registry

def empty : Registry := ⟨[]⟩

def find? (r : Registry) (name : Name) : Option Definition :=
  r.definitions.find? (·.name == name)

def get? (r : Registry) (name : String) : Option Definition := r.find? (.ofText name)

def size (r : Registry) : Nat := r.definitions.length

def isEmpty (r : Registry) : Bool := r.definitions.isEmpty

def register (r : Registry) (d : Definition) : Registry :=
  ⟨d :: r.definitions.filter (·.name != d.name)⟩

def builtin : Registry := ⟨[
  ⟨.mk "sum", .between 1 none, Aggregate.sum⟩,
  ⟨.mk "min", .between 1 none, Aggregate.minimum⟩,
  ⟨.mk "max", .between 1 none, Aggregate.maximum⟩,
  ⟨.mk "avg", .between 1 none, Aggregate.average⟩,
  ⟨.mk "round", .between 1 (some 2), RoundingFunction.roundWith .halfAwayFromZero⟩,
  ⟨.mk "roundup", .between 1 (some 2), RoundingFunction.roundWith .ceiling⟩,
  ⟨.mk "rounddown", .between 1 (some 2), RoundingFunction.roundWith .floor⟩]⟩

end Registry

end Formulary
