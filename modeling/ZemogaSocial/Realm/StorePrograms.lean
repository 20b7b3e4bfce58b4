import ZemogaSocial.Realm.ManagedObjects
import ZemogaSocial.Realm.Transaction
import ZemogaSocial.Refinement.PostMap

namespace ZemogaSocial

open ObjectStore

namespace ManagedObject

section Class

variable {α ω : Type} [RealmObject ω] [ManagedObject ω] [Persistable α ω]

def save (object : ω) : Program :=
  .write (.operate (className ω) fun _ => [.create (.object (valueForKey object)) .forceCreate none])

def saveAll : List α → Program
  | [] => .done
  | value :: rest => .andThen (save (Persistable.managedObject value)) (saveAll rest)

end Class

section Query

variable (ω : Type) [RealmObject ω] [ManagedObject ω]

/-- The query `id = %i`. -/
def hasId (id : Int64) (cells : Row) : Bool := cells[0]? == some (.int id)

/-- `setValue(_:forKey:)` on the results of the query, from the first match to the last. -/
def setValue (id : Int64) (key : String) (value : Value) : Program :=
  .write (.operate (className ω) fun rows => (rows.findIdxs (hasId id)).map fun row => .setValue row key value)

/-- `delete` of the results of the query: the view is cleared from its end. -/
def delete (id : Int64) : Program :=
  .write (.operate (className ω) fun rows => (rows.findIdxs (hasId id)).reverse.map .delete)

def deleteEach : List Int64 → Program
  | [] => .done
  | id :: rest => .andThen (delete ω id) (deleteEach rest)

def deleteAll : Program := .write (.operate (className ω) fun _ => [.clear])

end Query

end ManagedObject

/-- The Realm calls of a call of the post store whose `realm` is set. -/
def StoreOp.program : StoreOp → Program
  | .savePosts posts => ManagedObject.saveAll posts
  | .savePost post => ManagedObject.save post
  | .markAsRead post => ManagedObject.setValue PostObject post.id "read" (.bool true)
  | .setFavorite post isFavorite => ManagedObject.setValue PostObject post.id "isFavorite" (.bool isFavorite)
  | .delete posts => ManagedObject.deleteEach PostObject (posts.map PostObject.id)
  | .deleteAll => ManagedObject.deleteAll PostObject

end ZemogaSocial
