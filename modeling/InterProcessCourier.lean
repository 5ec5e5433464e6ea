import InterProcessCourier.Containment
import InterProcessCourier.Delivery
import InterProcessCourier.EndToEnd
import InterProcessCourier.Fragmentation
import InterProcessCourier.Lifetimes
import InterProcessCourier.Retry
import InterProcessCourier.SessionEnd
import InterProcessCourier.Queue
import InterProcessCourier.Service
import InterProcessCourier.Transparency
import InterProcessCourier.TypeSafety
import InterProcessCourier.TypedCalls
