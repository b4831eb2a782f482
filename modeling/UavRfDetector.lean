import UavRfDetector.Proofs.ServerAvailability
import UavRfDetector.Proofs.ServerEcho
import UavRfDetector.Proofs.ServerLogging
import UavRfDetector.Proofs.SessionTeardown
import UavRfDetector.Proofs.ServerDrain
import UavRfDetector.Contents
import UavRfDetector.Cuckoo.Bucket
import UavRfDetector.Cuckoo.Table
import UavRfDetector.Proofs.CuckooLayout
import UavRfDetector.Proofs.CuckooAccess
import UavRfDetector.Cuckoo.Operation
import UavRfDetector.Proofs.CuckooLookup
import UavRfDetector.Proofs.CuckooOperation
import UavRfDetector.Proofs.CuckooRehash
import UavRfDetector.Proofs.CuckooMigration
import UavRfDetector.Proofs.CuckooDoubling
import UavRfDetector.Cuckoo.Search
import UavRfDetector.Cuckoo.Threads
import UavRfDetector.Proofs.CuckooPath
import UavRfDetector.Proofs.CuckooSection
import UavRfDetector.Proofs.CuckooLocks
import UavRfDetector.Proofs.CuckooSteps
import UavRfDetector.Proofs.CuckooInvariant
import UavRfDetector.Refinement
import UavRfDetector.Proofs.CuckooLinearizable
import UavRfDetector.Proofs.CuckooProgress
import UavRfDetector.Eventually
import UavRfDetector.Proofs.CuckooSolo
import UavRfDetector.Proofs.CuckooTrace
import UavRfDetector.Proofs.CuckooAlone
import UavRfDetector.Proofs.CuckooResume
import UavRfDetector.Footprint
import UavRfDetector.Proofs.CuckooFootprint
import UavRfDetector.Proofs.CuckooBounds
import UavRfDetector.Proofs.CuckooExclusion
import UavRfDetector.Proofs.CuckooOutcome
