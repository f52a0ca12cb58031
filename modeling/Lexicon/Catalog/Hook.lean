import Lexicon.Catalog.Basic

/-! The context tracker attaches hooks to token types. -/

namespace Lexicon

variable {Hook : Type}

/-- An empty slot takes the hook, and a full one keeps what it holds. -/
def Descriptor.attach (descriptor : Descriptor Hook) (hook : Hook) :
    Descriptor Hook × Except TableError Unit :=
  match descriptor.hook with
  | none => ({ descriptor with hook := some hook }, .ok ())
  | some _ => (descriptor, .error (.hookAttached descriptor.label))

namespace Catalog

/-- Attaching changes the slot of the one descriptor, and there is no result without one. -/
def attach (catalog : Catalog Hook) (handle : Handle) (hook : Hook) :
    Catalog Hook × Option (Except TableError Unit) :=
  match catalog.descriptor? handle with
  | none => (catalog, none)
  | some descriptor =>
      let (next, result) := descriptor.attach hook
      ({ catalog with descriptors := catalog.descriptors.setIfInBounds handle.position next },
        some result)

end Catalog

end Lexicon
