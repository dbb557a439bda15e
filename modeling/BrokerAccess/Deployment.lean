import BrokerAccess.Gate
import BrokerAccess.Settings.Load
import BrokerAccess.Store

/-!
# Deployments

The store, the directory that follows it and the gate over both. The directory is the
first subscriber of the store, so it answers from the record in effect.
-/

namespace BrokerAccess

open Files (Path Time Tree)

/-- A running authority. -/
structure Deployment where
  /-- What the operator set. -/
  settings : Settings
  /-- The record in effect. -/
  store : Store
  /-- The look-ups in it. -/
  directory : Directory
  /-- The decisions on clients. -/
  gate : Gate

/-- What a reload of a deployment came to. -/
structure DeploymentReload where
  /-- The deployment afterwards. -/
  deployment : Deployment
  /-- The tree afterwards. -/
  tree : Tree
  /-- How the reload ended, none if a subscriber failed. -/
  outcome : Option Outcome
  /-- The calls of subscribers, in order. -/
  notices : List Notice
  /-- What there is to report. -/
  journal : Journal

namespace Deployment

/-- A deployment below a home folder, with the record that the tree holds. -/
def ofTree (home : Path) (settings : Settings) (t : Tree) : Deployment × Journal :=
  let (store, journal) := Store.ofTree home settings.passwordScheme t
  let empty : Directory := ⟨settings.passwordScheme, [], [], .standard⟩
  let (directory, built) : Directory × Journal :=
    match store.current with
    | none => (empty, [])
    | some record => (empty.update record, Directory.updateJournal record)
  (⟨settings, store.subscribe { recipient := .directory }, directory, .ofSettings settings⟩,
    journal ++ built)

/-- The directory after a call that may be for it, and what it has reported by then. -/
def heed (state : Directory × Journal) (notice : Notice) : Directory × Journal :=
  match notice.recipient with
  | .directory => (state.1.update notice.new, state.2 ++ Directory.updateJournal notice.new)
  | .observer _ => state

/-- The directory after the calls that it got, and what it reports. -/
def follow (d : Directory) (notices : List Notice) : Directory × Journal :=
  notices.foldl heed (d, [])

/-- Look at the record's file once. -/
def reload (d : Deployment) (moment : ArchiveTime) (t : Tree) : DeploymentReload :=
  let reload := d.store.reload moment t
  let (directory, built) := follow d.directory reload.notices
  { deployment := { d with store := reload.store, directory }
    tree := reload.tree
    outcome := reload.outcome
    notices := reload.notices
    journal := reload.journal ++ built }

/-- Decide on a connecting client. -/
def connect (d : Deployment) (now : Nat) (request : ConnectRequest) :
    Decision × Deployment × Journal :=
  let admission := d.gate.connect d.directory now request
  (admission.decision, { d with directory := { d.directory with cache := admission.cache } },
    admission.journal)

/-- The deployment with one more subscriber. -/
def subscribe (d : Deployment) (subscriber : Subscriber) : Deployment :=
  { d with store := d.store.subscribe subscriber }

end Deployment

end BrokerAccess
