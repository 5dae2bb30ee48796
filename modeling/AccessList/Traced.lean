import AccessList.Error

/-!
# Events, and computations that report them

Events say what becomes of terms. They do not bear on the outcome (`outcome_bind`), and a failure keeps those
before it.
-/

namespace AccessList

inductive Level
  | debug
  | info
  | warn
deriving DecidableEq

def Level.name : Level → String
  | debug => "DEBUG"
  | info => "INFO"
  | warn => "WARN"

inductive Suppression
  | otherPlatform
  | icmp6
  | noAddresses (side : Side) (family : Family)
  | noGroup
deriving DecidableEq

inductive Event
  | truncated (name short : String)
  | inapplicable (filter term : String)
  | expiresSoon (filter term : String) (expiration : Date) (weeks : Nat)
  | expired (filter term : String) (expiration : Date)
  | standardLogging (filter term : String)
  | suppressed (filter term : String) (why : Suppression)
  | compiled (filter : String) (type : FilterType) (terms empty : Nat)
deriving DecidableEq

namespace Event

def level : Event → Level
  | truncated .. | inapplicable .. | suppressed .. => .debug
  | expiresSoon .. | compiled .. => .info
  | expired .. | standardLogging .. => .warn

def message : Event → String
  | truncated .. => "term name truncated"
  | inapplicable .. => "term dropped by high-port rewrite"
  | expiresSoon .. => "term expires soon"
  | expired .. => "term is expired and will not be rendered"
  | standardLogging .. => "standard ACL logging may not be implemented on all IOS versions"
  | suppressed _ _ .otherPlatform => "term not rendered for platform"
  | suppressed _ _ .icmp6 => "icmpv6 term not rendered"
  | suppressed _ _ (.noAddresses ..) => "no addresses left, term not rendered"
  | suppressed _ _ .noGroup => "no inet addresses left, term not rendered"
  | compiled .. => "compiled filter"

def fields : Event → List (String × String)
  | truncated name short => [("term", name), ("truncated", short)]
  | inapplicable filter term | standardLogging filter term => [("filter", filter), ("term", term)]
  | expiresSoon filter term expiration weeks =>
    [("filter", filter), ("term", term), ("expiration", expiration.text), ("weeks", toString weeks)]
  | expired filter term expiration => [("filter", filter), ("term", term), ("expiration", expiration.text)]
  | suppressed filter term .otherPlatform | suppressed filter term .noGroup => [("filter", filter), ("term", term)]
  | suppressed filter term .icmp6 => [("filter", filter), ("term", term), ("family", Family.inet.name)]
  | suppressed filter term (.noAddresses side family) =>
    [("filter", filter), ("term", term), ("direction", side.name), ("family", family.name)]
  | compiled filter type terms empty =>
    [("filter", filter), ("filter_type", type.name), ("terms", toString terms), ("suppressed", toString empty)]

end Event

structure Traced (α : Type) where
  events : List Event
  outcome : Except CompileError α

namespace Traced

def tell (events : List Event) : Traced Unit := ⟨events, .ok ()⟩

def ofExcept {α : Type} (outcome : Except CompileError α) : Traced α := ⟨[], outcome⟩

instance : Monad Traced where
  pure a := ⟨[], .ok a⟩
  bind x f :=
    match x.outcome with
    | .ok a => ⟨x.events ++ (f a).events, (f a).outcome⟩
    | .error e => ⟨x.events, .error e⟩

variable {α β : Type}

@[simp] theorem outcome_pure (a : α) : (pure a : Traced α).outcome = .ok a := rfl

@[simp] theorem outcome_tell (es : List Event) : (tell es).outcome = .ok () := rfl

@[simp] theorem outcome_ofExcept (o : Except CompileError α) : (ofExcept o).outcome = o := rfl

/-- Events do not bear on the outcome. -/
@[simp] theorem outcome_bind (x : Traced α) (f : α → Traced β) :
    (x >>= f).outcome = x.outcome >>= fun a => (f a).outcome := by
  obtain ⟨es, o⟩ := x
  cases o <;> rfl

end Traced

end AccessList
