import ObjectSystem.Proofs.Interning.Growth
import ObjectSystem.Proofs.Registry.Change
import ObjectSystem.Proofs.Run.Basic

/-!
# Steps

Everything that happens to a registry in a run is made of seven kinds of steps. `Step` lists them,
each with what has been checked when it is taken; whether the names of members were issued is not.
`Evolves` puts them in sequence and lets a scratch copy be dropped. A property of runs is proved for
each kind of step and carried over by `Evolves.respects`.
-/

namespace ObjectSystem.Registry

open Catalog

/-- One change of a registry. Of declared types it says where their names come from: the string of
an anonymous type is the generated one, any other string is not reserved. -/
inductive Step : Registry → Registry → Prop
  | intern (r : Registry) (s : String) : Step r { r with names := (r.names.intern s).2 }
  | declare {r next : Registry} {label : String} {name : Name} {isAnonymous : Bool}
      {form : Form} {members : List Member} (hname : r.names.Holds label name)
      (hlabel : if isAnonymous then label = r.generatedName form.kind
        else r.isReserved label = false)
      (hdistinct : repeatedMember? members = none)
      (hparent : ∀ p, (r.newEntry name isAnonymous form members).parent = some p → r.isClass p)
      (hnext : r.place (r.newEntry name isAnonymous form members) = .ok next) : Step r next
  | extend {r : Registry} {type parent : Handle} (h : r.MayExtend type parent) :
      Step r { r with toCatalog := r.addParent type parent }
  | consume {r : Registry} {type role : Handle} (h : r.MayConsume type role)
      (hchecked : (r.addRole type role).firstConflict? type = none) :
      Step r { r with toCatalog := r.addRole type role }
  | addMember {r : Registry} {type : Handle} {m : Member} (hopen : r.isOpen type)
      (hnew : r.declares type m.name = false)
      (hchecked : (r.addMember type m).firstConflict? type = none) :
      Step r { r with toCatalog := r.addMember type m }
  | sealType (r : Registry) (type : Handle) : Step r { r with toCatalog := r.sealType type }
  | sealAll (r : Registry) : Step r { r with toCatalog := r.sealAll }

/-- Steps one after another. A scratch copy that is dropped leaves the strings it interned. -/
inductive Evolves : Registry → Registry → Prop
  | refl (r : Registry) : Evolves r r
  | tail {r s t : Registry} (h : Evolves r s) (hstep : Step s t) : Evolves r t
  | rollBack {r s scratch : Registry} (h : Evolves r s) (hscratch : Evolves s scratch) :
      Evolves r (s.keepingNames scratch)

namespace Evolves

variable {r s t : Registry}

theorem single (h : Step r s) : Evolves r s := (Evolves.refl r).tail h

theorem trans (hrs : Evolves r s) (hst : Evolves s t) : Evolves r t := by
  induction hst with
  | refl => exact hrs
  | tail _ hstep ih => exact (ih hrs).tail hstep
  | rollBack _ hscratch ih _ => exact (ih hrs).rollBack hscratch

/-- A preorder on registries that every step and every dropped scratch copy respects holds along
every sequence of steps. -/
theorem respects {R : Registry → Registry → Prop} (hrefl : ∀ r, R r r)
    (htrans : ∀ {r s t}, R r s → R s t → R r t) (hstep : ∀ {r s}, Step r s → R r s)
    (hback : ∀ {r s}, R r s → R r (r.keepingNames s)) (h : Evolves r s) : R r s := by
  induction h with
  | refl => exact hrefl _
  | tail _ hlast ih => exact htrans ih (hstep hlast)
  | rollBack _ _ ih ihscratch => exact htrans ih (hback ihscratch)

theorem preserves {P : Catalog → Prop}
    (hstep : ∀ {r s : Registry}, Step r s → P r.toCatalog → P s.toCatalog) (h : Evolves r s) :
    P r.toCatalog → P s.toCatalog :=
  h.respects (R := fun r s => P r.toCatalog → P s.toCatalog) (fun _ => id)
    (fun hrs hst hr => hst (hrs hr)) hstep fun _ hr => hr

end Evolves

end ObjectSystem.Registry
