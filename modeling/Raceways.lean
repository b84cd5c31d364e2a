import Raceways.Installation.Action
import Raceways.Proofs.Allotment
import Raceways.Proofs.Bookkeeping
import Raceways.Proofs.Census
import Raceways.Proofs.Compliance
import Raceways.Proofs.Counts
import Raceways.Proofs.Enrolment
import Raceways.Proofs.Independence
import Raceways.Proofs.Itinerary
import Raceways.Proofs.Log
import Raceways.Proofs.Orphans
import Raceways.Proofs.Promptness
import Raceways.Proofs.Rating
import Raceways.Proofs.Redistribution
import Raceways.Proofs.Refusals
import Raceways.Proofs.Renewal
import Raceways.Proofs.Resizing
import Raceways.Proofs.Rewiring
import Raceways.Proofs.RouteGraph
import Raceways.Proofs.Stowage
import Raceways.Proofs.Verdict
