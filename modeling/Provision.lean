import Provision.Archive.Tar.Writer
import Provision.Failure.Json
import Provision.Main
import Provision.Proofs.Dependents
import Provision.Proofs.Plan.Closure
import Provision.Proofs.Plan.Truthful
import Provision.Proofs.Execution.SideBySide
import Provision.Proofs.Store.Apart
import Provision.Proofs.Plan.Contents
import Provision.Proofs.Plan.DependencyOrder
import Provision.Proofs.Plan.Remainder
import Provision.Session
import Provision.Step.Json
import Provision.Store.Scripted
import Provision.Proofs.Execution.Waves
import Provision.Proofs.Plan.Running
import Provision.Proofs.Request
import Provision.Proofs.Plan.Goal
import Provision.Proofs.Plan.Concurrency
import Provision.Proofs.Plan.Fitting
import Provision.Proofs.Session
import Provision.Proofs.Plan.Reordering
import Provision.Proofs.Plan.Extension
import Provision.Proofs.Plan.Separation
import Provision.Proofs.Plan.Cascade
import Provision.Proofs.Session.SingleUse
import Provision.Proofs.Version
import Provision.Proofs.Repository
import Provision.Proofs.Store.Directory.Applying
import Provision.Proofs.Version.Order
import Provision.Proofs.Execution.Rounds
import Provision.Proofs.Key.Stability
import Provision.Proofs.Store.Directory.Files
import Provision.Proofs.Plan.Repetition
import Provision.Proofs.Dependents.Order
import Provision.Proofs.Store.Directory.Delivery
import Provision.Proofs.CommandLine.Reference
import Provision.Proofs.Plan.Lineup
import Provision.Proofs.Config
import Provision.Proofs.Plan.Ending
import Provision.Proofs.CommandLine.Prompt
