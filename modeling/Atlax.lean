import Atlax.Analysis.GoingAway
import Atlax.Analysis.Shutdown
import Atlax.Analysis.Resets
import Atlax.Analysis.StreamIsolation
import Atlax.Analysis.Acceptance
import Atlax.Analysis.Restart
import Atlax.Analysis.Routing
import Atlax.Analysis.Registration
import Atlax.Analysis.StreamLimit
import Atlax.Analysis.ClientCalls
import Atlax.Analysis.Stopping
import Atlax.Analysis.Reconcile
import Atlax.Analysis.Updates
import Atlax.Analysis.AcceptLoops
import Atlax.Analysis.ClientConns
import Atlax.Analysis.Forwarding
import Atlax.Analysis.Auditing
import Atlax.Analysis.CertRotation
import Atlax.Analysis.LastFrames
import Atlax.Analysis.StreamWindows
import Atlax.Analysis.ServiceLists
import Atlax.Analysis.Pings
import Atlax.Analysis.RateLimits
import Atlax.Analysis.Datagrams
import Atlax.Analysis.Lifecycles
import Atlax.Analysis.WriteQueues
import Atlax.Analysis.Settling
import Atlax.Analysis.ByteLinks
import Atlax.Analysis.Tenants
import Atlax.Analysis.Deadlocks
