/-
This file adds up the ledgers of the parties of a deployment: what is in hand is
what the launch, the consumer and every worker have in hand. Every step of a
deployment moves this ledger by the event of the party that moves, and a restart
drops what the workers and the launch have in hand.
-/

import PoliteCrawler.PartyLedger

namespace PoliteCrawler

open Ledger (Event)

variable {Url : Type}

/-! ### The ledger -/

section Ledgers

variable [DecidableEq Url] (crates : Crates Url) {n : Nat}

/-- What all of them have in hand. -/
def Deployment.hands (deployment : Deployment Url n) : Multiset Url :=
  urlsOf crates deployment.launch.filtered +
    urlsOf crates deployment.crawler.shared.service.consumer.filtered +
    ∑ id, (urlsOf crates (deployment.crawler.workers id).filtered : Multiset Url)

/-- What the others have in hand beside a worker. -/
def Deployment.handsBeside (deployment : Deployment Url n) (id : Fin n) :
    Multiset Url :=
  urlsOf crates deployment.launch.filtered +
    urlsOf crates deployment.crawler.shared.service.consumer.filtered +
    ∑ other ∈ Finset.univ.erase id,
      (urlsOf crates (deployment.crawler.workers other).filtered : Multiset Url)

def Deployment.ledger (deployment : Deployment Url n) : Ledger Url :=
  { partyLedger crates deployment.crawler.shared.service [] deployment.popped deployment.entered
    with inHand := deployment.hands crates }

/-- The ledger is that of one party, with what the others have in hand. -/
theorem Deployment.ledger_eq {deployment : Deployment Url n} {texts : List String}
    {rest : Multiset Url} (hands : deployment.hands crates = urlsOf crates texts + rest) :
    deployment.ledger crates =
      (partyLedger crates deployment.crawler.shared.service texts deployment.popped
        deployment.entered).hold rest := by
  rw [Deployment.ledger, hands]
  rfl

/-- Nobody is between an `insert_url` that finds a new URL and the end of its push attempts. -/
def Deployment.AtRest (deployment : Deployment Url n) : Prop :=
  deployment.launch.filtered = [] ∧ deployment.crawler.shared.service.consumer.filtered = [] ∧
    ∀ id, (deployment.crawler.workers id).filtered = []

omit [DecidableEq Url] in
theorem Deployment.AtRest.hands {deployment : Deployment Url n} (rest : deployment.AtRest) :
    deployment.hands crates = 0 := by
  obtain ⟨launch, consumer, workers⟩ := rest
  rw [Deployment.hands, launch, consumer, Finset.sum_congr rfl fun id _ => by rw [workers id]]
  exact (congrArg _ Finset.sum_const_zero).trans (add_zero _)

/-- What a step means. A restart gives up what the workers and the launch have in hand. -/
def Deployment.event (deployment : Deployment Url n) :
    DeploymentAction Url n → Event Url
  | .crawl (.worker id input) =>
    workerEvent crates deployment.crawler.shared.service (deployment.crawler.workers id) input
  | .crawl (.service action) => serviceEvent crates deployment.crawler.shared.service action
  | .crawl _ => .idle
  | .launch input => launchEvent crates deployment.launch input
  | .restart _ _ => .drop (urlsOf crates deployment.launch.filtered +
      ∑ id, (urlsOf crates (deployment.crawler.workers id).filtered : Multiset Url))

end Ledgers

/-! ### The steps of the deployment -/

section Steps

variable [DecidableEq Url] {crates : Crates Url} {n : Nat} {deployment next : Deployment Url n}

/-- The storage service goes on, and only workers and the launch ask it to insert URLs. -/
def storageStaysUp : DeploymentAction Url n → Bool
  | .crawl (.service action) => staysUp action
  | _ => true

theorem worker_ledger (exact : crates.FilterExact) {limit : Option (BitVec 64)} {id : Fin n}
    {input : Input Url}
    (moved : deploymentStep crates limit (.crawl (.worker id input)) deployment = some next) :
    (deployment.ledger crates).Moved (deployment.event crates (.crawl (.worker id input)))
      (next.ledger crates) := by
  simp only [deploymentStep] at moved
  split at moved
  · obtain ⟨crawler, stepped, rfl⟩ := Option.map_eq_some_iff.mp moved
    obtain ⟨⟨shared, worker⟩, worked, rfl⟩ := Option.map_eq_some_iff.mp stepped
    have consumer := (workerStep_moved worked).consumer_eq
    have before : deployment.hands crates =
        urlsOf crates (deployment.crawler.workers id).filtered + deployment.handsBeside crates id := by
      rw [Deployment.hands, ← Finset.sum_erase_add _ _ (Finset.mem_univ id), ← add_assoc, add_comm]
      rfl
    have sum := Transition.sum_update deployment.crawler.workers id worker
      fun worker => (urlsOf crates worker.filtered : Multiset Url)
    have after : Deployment.hands crates { deployment with
        crawler := { deployment.crawler with
          shared
          workers := Function.update deployment.crawler.workers id worker }
        popped := deployment.popped ++ poppedBy deployment.crawler (.worker id input)
        entered := deployment.entered ++ enteredBy deployment.crawler (.worker id input) } =
          urlsOf crates worker.filtered + deployment.handsBeside crates id := by
      rw [Deployment.hands]
      refine (congrArg _ sum).trans ?_
      rw [consumer, ← add_assoc, add_comm]
      rfl
    rw [Deployment.ledger_eq crates before, Deployment.ledger_eq crates after]
    exact (workerStep_ledger exact worked).hold _
  · cases moved

theorem service_ledger (exact : crates.FilterExact) {limit : Option (BitVec 64)}
    {action : ServiceAction Url}
    (moved : deploymentStep crates limit (.crawl (.service action)) deployment = some next)
    (up : staysUp action = true) :
    (deployment.ledger crates).Moved (deployment.event crates (.crawl (.service action)))
      (next.ledger crates) := by
  obtain ⟨crawler, stepped, rfl⟩ := Option.map_eq_some_iff.mp moved
  obtain ⟨service, served, rfl⟩ := Option.map_eq_some_iff.mp stepped
  have before : deployment.hands crates =
      urlsOf crates deployment.crawler.shared.service.consumer.filtered +
      (urlsOf crates deployment.launch.filtered + ∑ id,
        (urlsOf crates (deployment.crawler.workers id).filtered : Multiset Url)) := by
    rw [Deployment.hands, add_comm (urlsOf crates deployment.launch.filtered : Multiset Url),
      add_assoc]
  have after : Deployment.hands crates { deployment with
      crawler := { deployment.crawler with
        shared := { deployment.crawler.shared with service } }
      popped := deployment.popped ++ poppedBy deployment.crawler (.service action)
      entered := deployment.entered ++ enteredBy deployment.crawler (.service action) } =
        urlsOf crates service.consumer.filtered +
        (urlsOf crates deployment.launch.filtered + ∑ id,
          (urlsOf crates (deployment.crawler.workers id).filtered : Multiset Url)) := by
    rw [Deployment.hands, add_comm (urlsOf crates deployment.launch.filtered : Multiset Url),
      add_assoc]
  rw [Deployment.ledger_eq crates before, Deployment.ledger_eq crates after]
  have quiet : deployment.popped ++ poppedBy deployment.crawler (.service action) =
    deployment.popped := List.append_nil _
  show Ledger.Moved _ _ ((partyLedger crates service service.consumer.filtered
    (deployment.popped ++ poppedBy deployment.crawler (.service action)) _).hold _)
  rw [quiet]
  exact (serviceStep_ledger exact served up).hold _

theorem idle_ledger {crawler : Crawler Url n}
    (service : crawler.shared.service = deployment.crawler.shared.service)
    (workers : crawler.workers = deployment.crawler.workers) :
    (deployment.ledger crates).Moved .idle (Deployment.ledger crates { deployment with
      crawler
      popped := deployment.popped ++ []
      entered := deployment.entered ++ [] }) := by
  rw [List.append_nil, List.append_nil, Deployment.ledger, Deployment.ledger, Deployment.hands,
    Deployment.hands, service, workers]
  exact .idled

/-- Every step of a deployment moves the ledger by its event. -/
theorem deploymentStep_ledger (exact : crates.FilterExact) {limit : Option (BitVec 64)}
    {action : DeploymentAction Url n}
    (moved : deploymentStep crates limit action deployment = some next)
    (up : storageStaysUp action = true) :
    (deployment.ledger crates).Moved (deployment.event crates action) (next.ledger crates) := by
  cases action with
  | crawl action =>
    cases action with
    | worker id input => exact worker_ledger exact moved
    | service action => exact service_ledger exact moved up
    | monitor =>
      simp only [deploymentStep] at moved
      split at moved
      · obtain ⟨crawler, stepped, rfl⟩ := Option.map_eq_some_iff.mp moved
        cases crawlerStep_moved crates stepped
        exact idle_ledger rfl rfl
      · cases moved
    | interrupt =>
      cases moved
      exact idle_ledger rfl rfl
    | tick elapsed =>
      cases moved
      exact idle_ledger rfl rfl
  | launch input =>
    obtain ⟨⟨shared, launch⟩, stepped, rfl⟩ := Option.map_eq_some_iff.mp moved
    have before : deployment.hands crates = urlsOf crates deployment.launch.filtered + _ :=
      add_assoc _ _ _
    have after : Deployment.hands crates { deployment with
        crawler := { deployment.crawler with shared }
        launch
        entered := deployment.entered ++ deployment.launch.enters crates input } =
          urlsOf crates launch.filtered +
          ((urlsOf crates deployment.crawler.shared.service.consumer.filtered : Multiset Url) +
          ∑ id, (urlsOf crates (deployment.crawler.workers id).filtered : Multiset Url)) := by
      rw [Deployment.hands, (launchStep_aside stepped).consumer, add_assoc]
    rw [Deployment.ledger_eq crates before, Deployment.ledger_eq crates after]
    exact (launchStep_ledger exact stepped).hold _
  | restart startUrl seed =>
    cases moved
    have held : (deployment.ledger crates).inHand = urlsOf crates deployment.launch.filtered +
        (∑ id, (urlsOf crates (deployment.crawler.workers id).filtered : Multiset Url)) +
        urlsOf crates deployment.crawler.shared.service.consumer.filtered :=
      add_right_comm _ _ _
    have after : Deployment.ledger crates ({ deployment with
        crawler := Crawler.fresh deployment.crawler.shared.clock deployment.crawler.shared.service
        launch := .checking startUrl seed } : Deployment Url n) =
          { deployment.ledger crates with
            inHand := urlsOf crates deployment.crawler.shared.service.consumer.filtered } := by
      have workers : (∑ _ : Fin n, ((urlsOf crates [] : List Url) : Multiset Url)) = 0 :=
        Finset.sum_const_zero
      rw [Deployment.ledger]
      exact congrArg (Ledger.mk _ · _ _ _)
        ((congrArg _ workers).trans ((add_zero _).trans (zero_add _)))
    rw [after]
    exact .dropped held

end Steps

end PoliteCrawler
