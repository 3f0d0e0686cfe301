import PixelPool.Session.Script
import PixelPool.Trial
import PixelPool.Proofs.Emptying
import PixelPool.Proofs.Enclosure
import PixelPool.Proofs.Failures
import PixelPool.Proofs.Hits
import PixelPool.Proofs.Lifecycle
import PixelPool.Proofs.Lifetimes
import PixelPool.Proofs.Metering
import PixelPool.Proofs.Publications
import PixelPool.Proofs.Quotas
import PixelPool.Proofs.Reports
import PixelPool.Proofs.Separation
import PixelPool.Proofs.Settings
import PixelPool.Proofs.Sizes
import PixelPool.Proofs.Sources
import PixelPool.Proofs.Swaps
