import ZemogaSocial.Persistence.Store

namespace ZemogaSocial

abbrev CommentStore := Store CommentObject

namespace CommentStore

def saveComment (store : CommentStore) (comment : CommentObject) :
    Except (Failure (Rows CommentObject)) CommentStore := store.save comment

def saveComments (store : CommentStore) (comments : List Comment) :
    Except (Abort (Rows CommentObject)) CommentStore := store.saveAll comments

def retrieveComments (store : CommentStore) (postId : Int64) : Except RuntimeError (List CommentObject) :=
  store.retrieve fun object => object.postId == postId

def loadCommentsFromRealm (store : CommentStore) (postId : Int64) : CommentStore × Option (List Comment) :=
  store.load fun store => retrieveComments store postId

def deleteAll (store : CommentStore) : CommentStore × Bool := Store.deleteAll store

end CommentStore

abbrev UserStore := Store UserObject

namespace UserStore

def saveUser (store : UserStore) (user : UserObject) : Except (Failure (Rows UserObject)) UserStore :=
  store.save user

def saveUsers (store : UserStore) (users : List User) : Except (Abort (Rows UserObject)) UserStore :=
  store.saveAll users

def retrieveUsers (store : UserStore) (id : Int64) : Except RuntimeError (List UserObject) :=
  store.retrieve fun object => object.id == id

def loadUsersFromRealm (store : UserStore) (id : Int64) : UserStore × Option (List User) :=
  store.load fun store => retrieveUsers store id

def deleteAll (store : UserStore) : UserStore × Bool := Store.deleteAll store

end UserStore

end ZemogaSocial
