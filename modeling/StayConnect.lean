import StayConnect.Posting.AtMostOnce
import StayConnect.Netd.Boundary
import StayConnect.Netd.Generations
import StayConnect.Netd.Soundness
import StayConnect.Netd.Allowance
import StayConnect.Netd.RevocationJournal
import StayConnect.Iam.CrossingInstant
import StayConnect.Iam.Consumption
import StayConnect.Commerce.Once
import StayConnect.Commerce.Numbers
import StayConnect.Payment.Agreement
import StayConnect.License.Revocation
import StayConnect.License.Clock
import StayConnect.Enforce.Continuity
import StayConnect.Enforce.Plan
import StayConnect.Erasure.Confirmed
import StayConnect.Assignment.Highest
import StayConnect.Netcfg.Forward
import StayConnect.Netcfg.Converge
import StayConnect.Netcfg.Dhcp
import StayConnect.Netcfg.Layout
import StayConnect.Netcfg.SubnetIds
import StayConnect.Netcfg.Garden
import StayConnect.License.Binding
import StayConnect.Online.Exhaustion
import StayConnect.Pms.Unkeyed
