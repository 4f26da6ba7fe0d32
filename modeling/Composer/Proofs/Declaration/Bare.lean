import Composer.Declaration.Tree

/-!
Trees without places. `bare` puts the same span at every node, so that trees are equal after it just
where they differ in spans at most.
-/

namespace Composer

def Ident.bare (ident : Ident) : Ident := { ident with span := default }

def Attribute.bare (attr : Attribute) : Attribute :=
  ⟨attr.name.bare, attr.args.map Ident.bare, default⟩

namespace TypeExpr

mutual

def bare : TypeExpr → TypeExpr
  | path segments generics _ => path (segments.map Ident.bare) (bares generics) default
  | snapshot inner _ => snapshot inner.bare default
  | tuple items _ => tuple (bares items) default

def bares : List TypeExpr → List TypeExpr
  | [] => []
  | type :: rest => type.bare :: bares rest

end

theorem bares_eq_map (types : List TypeExpr) : bares types = types.map bare := by
  induction types with
  | nil => rfl
  | cons type rest ih => rw [bares, ih, List.map_cons]

theorem path_text_bare (segments : List Ident) :
    pathText (segments.map Ident.bare) = pathText segments := by
  simp only [pathText, List.map_map]
  rfl

mutual

@[simp]
theorem text_bare (type : TypeExpr) : type.bare.text = type.text := by
  cases type with
  | path segments generics span => simp only [bare, text, path_text_bare, texts_bares generics]
  | snapshot inner span => simp only [bare, text, text_bare inner]
  | tuple items span => simp only [bare, text, texts_bares items]

theorem texts_bares (types : List TypeExpr) : texts (bares types) = texts types := by
  cases types with
  | nil => rfl
  | cons type rest => simp only [bares, texts, text_bare type, texts_bares rest]

end

end TypeExpr

def TypePath.bare (path : TypePath) : TypePath :=
  ⟨path.segments.map Ident.bare, path.generics.map TypeExpr.bare, default⟩

def Receiver.bare (receiver : Receiver) : Receiver :=
  { receiver with type := receiver.type.bare, span := default }

def Param.bare (param : Param) : Param := ⟨param.name.bare, param.type.bare, default⟩

def MethodDecl.bare (method : MethodDecl) : MethodDecl :=
  ⟨method.name.bare, method.receiver.bare, method.params.map Param.bare,
    method.ret.map TypeExpr.bare, default⟩

def MemberDecl.bare (member : MemberDecl) : MemberDecl :=
  ⟨member.attributes.map Attribute.bare, member.name.bare, member.type.bare, default⟩

def StorageBlock.bare (block : StorageBlock) : StorageBlock :=
  ⟨block.members.map MemberDecl.bare, default⟩

def VariantDecl.bare (variant : VariantDecl) : VariantDecl :=
  ⟨variant.attributes.map Attribute.bare, variant.name.bare, variant.payload.map TypeExpr.bare,
    default⟩

def EventBlock.bare (block : EventBlock) : EventBlock :=
  ⟨block.variants.map VariantDecl.bare, default⟩

def InterfaceDecl.bare (interface : InterfaceDecl) : InterfaceDecl :=
  ⟨interface.name.bare, interface.methods.map MethodDecl.bare, default⟩

def ImplDecl.bare (impl : ImplDecl) : ImplDecl :=
  ⟨impl.attributes.map Attribute.bare, impl.name.bare, impl.interface.map Ident.bare,
    impl.methods.map MethodDecl.bare, default⟩

def ComponentDecl.bare (decl : ComponentDecl) : ComponentDecl :=
  ⟨decl.name.bare, decl.storage.map StorageBlock.bare, decl.event.map EventBlock.bare,
    decl.interfaces.map InterfaceDecl.bare, decl.impls.map ImplDecl.bare, default⟩

def InclusionDecl.bare (inclusion : InclusionDecl) : InclusionDecl :=
  ⟨inclusion.path.bare, inclusion.storage.bare, inclusion.event.bare, default⟩

def ExposureDecl.bare (exposure : ExposureDecl) : ExposureDecl :=
  ⟨exposure.attributes.map Attribute.bare, exposure.localName.bare, exposure.target.bare, default⟩

def ContractDecl.bare (decl : ContractDecl) : ContractDecl :=
  ⟨decl.name.bare, decl.inclusions.map InclusionDecl.bare, decl.exposures.map ExposureDecl.bare,
    decl.storage.map StorageBlock.bare, decl.event.map EventBlock.bare, default⟩

def Item.bare : Item → Item
  | component decl => .component decl.bare
  | contract decl => .contract decl.bare

end Composer
