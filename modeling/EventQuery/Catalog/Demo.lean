import EventQuery.Catalog.Basic

/-! The built-in catalog, used when none is given. -/

namespace EventQuery.Catalog

private def plainEntity (name : String) (isDefault : Bool) : Entity := ⟨name, name, isDefault⟩

private def plainAttribute (name : String) (dataType : DataType) : Attribute :=
  ⟨name, dataType, name⟩

private def plainEvent (name : String) (entities : List Entity) (attributes : List Attribute) :
    Event :=
  ⟨name, "event_id", "ts", entities, attributes, name⟩

def demoEvents : List Event := [
  plainEvent "user_signed_up" [plainEntity "user_id" true]
    [plainAttribute "plan" .string, plainAttribute "country" .string],
  plainEvent "user_logged_in"
    [plainEntity "entity_1" false, plainEntity "entity_2" false, plainEntity "user_id" true]
    [plainAttribute "status" .string, plainAttribute "device" .string],
  plainEvent "order_placed" [plainEntity "user_id" true, plainEntity "order_id" false]
    [plainAttribute "amount" .float, plainAttribute "currency" .string,
      plainAttribute "is_gift" .boolean]]

def demo : Catalog := unchecked demoEvents

end EventQuery.Catalog
