import IocDb.Link.Basic

/-!
# Decorating links

Options are attached to anything that can be a link, also to something that could not be built: its
rejection passes through.

* `Linkable`, `Linkable.toLink`.
* `Linkable.decorate`: attach one option.
* `Decoration`, **`Linkable.attach`**: attach options in order, in either of two ways.
-/

namespace IocDb

/-- Anything that a link option can be attached to. -/
inductive Linkable where
  | record (handle : Handle)
  | link (value : RecordLink)
  | parameter (value : Parameter)
  | decorated (value : DecoratedLink)
  /-- what came of building one of these -/
  | result (made : Except Rejection Linkable)

namespace Linkable

/-- The link that a target is, with no options yet unless it has some. -/
def toLink : Linkable → Except Rejection DecoratedLink
  | record handle => .ok (.bare (.record (.toRecord handle)))
  | link value => .ok (.bare (.record value))
  | parameter value => .ok (.bare (.parameter value))
  | decorated value => .ok value
  | result (.ok target) => target.toLink
  | result (.error cause) => .error cause

/-- What came of building a link. -/
def ofLink (made : Except Rejection DecoratedLink) : Linkable := .result (made.map .decorated)

/-- Attach an option to a target. -/
def decorate (option : LinkOption) (target : Linkable) : Except Rejection DecoratedLink := do
  let link ← target.toLink
  link.addOption option

end Linkable

/-- A way to attach an option. -/
inductive Decoration where
  /-- by the function that is named after the option -/
  | function (option : LinkOption)
  /-- by the method that a link has, once the target is one -/
  | method (option : LinkOption)
deriving Repr, DecidableEq

namespace Decoration

/-- The option that is attached. -/
def option : Decoration → LinkOption
  | function option | method option => option

/-- Attach the option to a target. -/
def apply (target : Linkable) : Decoration → Except Rejection DecoratedLink
  | function option => target.decorate option
  | method option => target.toLink >>= fun link => link.addOption option

end Decoration

/-- Attach options to a target, each to what came of the ones before it. -/
def Linkable.attach (target : Linkable) : List Decoration → Except Rejection DecoratedLink
  | [] => target.toLink
  | step :: steps => attach (.ofLink (step.apply target)) steps

end IocDb
