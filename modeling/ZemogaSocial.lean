import ZemogaSocial.Keyed.Table
import ZemogaSocial.Models
import ZemogaSocial.Persistence.Store
import ZemogaSocial.Transition.Pending
import ZemogaSocial.Transition.Run
import ZemogaSocial.Transition.Simulation
import ZemogaSocial.Transition.Ledger
import ZemogaSocial.Keyed.Contents
import ZemogaSocial.Network.DataRequest
import ZemogaSocial.Scenes.PostsScene
import ZemogaSocial.Safety.PostLoads
import ZemogaSocial.Scenes.PostsReactions
import ZemogaSocial.Safety.StoppedSaves
import ZemogaSocial.Refinement.PostMap
import ZemogaSocial.Scenes.DetailsReactions
import ZemogaSocial.Safety.DetailLoads
import ZemogaSocial.Safety.DetailAnswers
import ZemogaSocial.Safety.LoadedLists
import ZemogaSocial.Safety.ShownRows
import ZemogaSocial.Scenes.DurableTable
import ZemogaSocial.Safety.Deletions
import ZemogaSocial.Safety.ReadMarks
import ZemogaSocial.Transition.Busy
import ZemogaSocial.Safety.LoadingFlags
import ZemogaSocial.Keyed.RemovalOrder
import ZemogaSocial.Safety.SwipedLists
import ZemogaSocial.Safety.Reloads
import ZemogaSocial.Safety.UnreadMarks
import ZemogaSocial.Scenes.PostDetailScene
import ZemogaSocial.Safety.StarToggles
import ZemogaSocial.Safety.CallLedger
import ZemogaSocial.Safety.Survival
import ZemogaSocial.Scenes.HomeScene
import ZemogaSocial.Safety.SingleLoads
import ZemogaSocial.Transition.Since
import ZemogaSocial.Refinement.CommitLog
import ZemogaSocial.Refinement.RowHistory
import ZemogaSocial.Safety.DetailCaches
import ZemogaSocial.Realm.Table
import ZemogaSocial.Realm.KeyValueCoding
import ZemogaSocial.Realm.ObjectAccessor
import ZemogaSocial.Realm.Conformance
import ZemogaSocial.Keyed.References
import ZemogaSocial.Realm.Instructions
import ZemogaSocial.Realm.ManagedObjects
import ZemogaSocial.Realm.UpdatePolicy
import ZemogaSocial.Realm.ObjectCreation
import ZemogaSocial.Realm.Transaction
import ZemogaSocial.Realm.Durability
import ZemogaSocial.Realm.StorePrograms
import ZemogaSocial.Realm.TableView
import ZemogaSocial.Realm.Results
import ZemogaSocial.Realm.LiveResults
import ZemogaSocial.Realm.FastEnumeration
import ZemogaSocial.Realm.Listing
import ZemogaSocial.Realm.EnumeratedObjects
import ZemogaSocial.Refinement.RealmStores
import ZemogaSocial.Refinement.HomeOnRealm
import ZemogaSocial.Refinement.Kills
import ZemogaSocial.Refinement.RealmCollections
