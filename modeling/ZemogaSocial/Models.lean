namespace ZemogaSocial

class Persistable (α : Type) (ω : outParam Type) where
  ofManaged : ω → α
  managedObject : α → ω

class LawfulPersistable (α : Type) {ω : outParam Type} [Persistable α ω] : Prop where
  ofManaged_managedObject (value : α) : Persistable.ofManaged (Persistable.managedObject value) = value

attribute [simp] LawfulPersistable.ofManaged_managedObject

/-- `primaryKey()` is `"id"` in every object class, a Swift `Int`. -/
class RealmObject (ω : Type) where
  primaryKey : ω → Int64

/-- What the decoder reads of one post; `isFavorite` and `read` are not among the coding keys. -/
structure PostJSON where
  id : Int64
  userId : Int64
  title : String
  body : String
  deriving DecidableEq, Repr

structure Post where
  id : Int64
  userID : Int64
  title : String
  body : String
  isFavorite : Bool := false
  read : Bool := true
  deriving DecidableEq, Repr

def Post.decode (json : PostJSON) : Post where
  id := json.id
  userID := json.userId
  title := json.title
  body := json.body

structure PostObject where
  id : Int64 := 0
  userID : Int64 := 0
  title : String := ""
  body : String := ""
  isFavorite : Bool := false
  read : Bool := false
  deriving DecidableEq, Repr

instance : RealmObject PostObject := ⟨PostObject.id⟩

def Post.ofManaged (object : PostObject) : Post where
  id := object.id
  userID := object.userID
  title := object.title
  body := object.body
  isFavorite := object.isFavorite
  read := object.read

def Post.managedObject (post : Post) : PostObject where
  id := post.id
  userID := post.userID
  title := post.title
  body := post.body
  isFavorite := post.isFavorite
  read := post.read

instance : Persistable Post PostObject := ⟨Post.ofManaged, Post.managedObject⟩
instance : LawfulPersistable Post := ⟨fun _ => rfl⟩

structure Comment where
  id : Int64
  postId : Int64
  name : String
  email : String
  body : String
  deriving DecidableEq, Repr

structure CommentObject where
  id : Int64 := 0
  postId : Int64 := 0
  name : String := ""
  email : String := ""
  body : String := ""
  deriving DecidableEq, Repr

instance : RealmObject CommentObject := ⟨CommentObject.id⟩

def Comment.ofManaged (object : CommentObject) : Comment where
  id := object.id
  postId := object.postId
  name := object.name
  email := object.email
  body := object.body

def Comment.managedObject (comment : Comment) : CommentObject where
  id := comment.id
  postId := comment.postId
  name := comment.name
  email := comment.email
  body := comment.body

instance : Persistable Comment CommentObject := ⟨Comment.ofManaged, Comment.managedObject⟩
instance : LawfulPersistable Comment := ⟨fun _ => rfl⟩

structure User where
  id : Int64
  name : String
  username : String
  email : String
  phone : String
  deriving DecidableEq, Repr

structure UserObject where
  id : Int64 := 0
  name : String := ""
  username : String := ""
  email : String := ""
  phone : String := ""
  deriving DecidableEq, Repr

instance : RealmObject UserObject := ⟨UserObject.id⟩

def User.ofManaged (object : UserObject) : User where
  id := object.id
  name := object.name
  username := object.username
  email := object.email
  phone := object.phone

def User.managedObject (user : User) : UserObject where
  id := user.id
  name := user.name
  username := user.username
  email := user.email
  phone := user.phone

instance : Persistable User UserObject := ⟨User.ofManaged, User.managedObject⟩
instance : LawfulPersistable User := ⟨fun _ => rfl⟩

end ZemogaSocial
