import Composer.Source.Span

/-!
Source maps lead from generated items to the declarations that caused them.
-/

namespace Composer

inductive GeneratedKind
  | accessor
  | wrapper
  | entryPoint
deriving DecidableEq, Repr

namespace GeneratedKind

def all : List GeneratedKind := [accessor, wrapper, entryPoint]

def text : GeneratedKind → String
  | accessor => "accessor"
  | wrapper => "wrapper"
  | entryPoint => "entry_point"

def ofText? (word : String) : Option GeneratedKind := all.find? (·.text = word)

end GeneratedKind

structure SourceLink where
  item : String
  kind : GeneratedKind
  file : String
  span : Span
deriving DecidableEq, Repr

structure SourceMap where
  links : List SourceLink
deriving DecidableEq, Repr

namespace SourceMap

def empty : SourceMap := ⟨[]⟩

def push (map : SourceMap) (link : SourceLink) : SourceMap := ⟨map.links ++ [link]⟩

def find? (map : SourceMap) (item : String) (kind : GeneratedKind) : Option SourceLink :=
  map.links.find? fun link => link.item = item && link.kind = kind

end SourceMap

end Composer
