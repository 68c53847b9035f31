import IrAssembly.Gallery.Fibonacci
import IrAssembly.Gallery.VariadicSum
import IrAssembly.Gallery.VectorCompare

/-!
The sample modules by name.
-/

namespace IrAssembly

/-- A named sample module. -/
structure Sample where
  name : String
  description : String
  build : Except GalleryError Module

namespace Gallery

def samples : List Sample :=
  [ { name := "fibonacci"
      description := "recursive fibonacci, main checks fibonacci(10) == 55"
      build := fibonacci },
    { name := "vararg-sum"
      description := "variadic sum over va_arg, main checks sum(10, 20, 12) == 42"
      build := variadicSum },
    { name := "vector-compare"
      description := "fills two <4 x i32> vectors and folds a lane-wise compare"
      build := vectorCompare },
    { name := "vector-compare-mixed"
      description := "one differing lane: folded eq must be false, folded ne true"
      build := vectorCompareMixed } ]

def find? (name : String) : Option Sample := samples.find? (·.name == name)

end Gallery

end IrAssembly
