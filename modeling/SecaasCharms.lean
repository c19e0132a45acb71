import SecaasCharms.WireGuardListing
import SecaasCharms.LeasePool
import SecaasCharms.StepRuns
import SecaasCharms.WireGuardCommands
import SecaasCharms.WireGuardAllocation
import SecaasCharms.WireGuardAdmission
import SecaasCharms.WireGuardKeys
import SecaasCharms.WireGuardCredentials
import SecaasCharms.WireGuardDisconnection
import SecaasCharms.LineStack
import SecaasCharms.RulesFile
import SecaasCharms.FileLines
import SecaasCharms.HomeNetwork
import SecaasCharms.ConfigurationRuns
import SecaasCharms.Exchange
import SecaasCharms.JsonValues
import SecaasCharms.WazuhCharm
import SecaasCharms.WazuhFailures
import SecaasCharms.SnortService
import SecaasCharms.ServicePairing
import SecaasCharms.Mirroring
import SecaasCharms.SnortHealth
import SecaasCharms.SnortUniqueness
import SecaasCharms.IdsEngines
import SecaasCharms.AfPacketPass
import SecaasCharms.FailedConfiguration
import SecaasCharms.HomeNetworkAddresses
import SecaasCharms.RrdDump
import SecaasCharms.InterfaceSelection
import SecaasCharms.JsonText
import SecaasCharms.JsonTextSize
import SecaasCharms.RequestBodies
import SecaasCharms.TextWords
import SecaasCharms.WireGuardTraffic
import SecaasCharms.WireGuardTotals
import SecaasCharms.ScaledRounding
import SecaasCharms.SuricataHealth
import SecaasCharms.JsonDumps
import SecaasCharms.TopTalkers
import SecaasCharms.NtopngService
import SecaasCharms.WireGuardServerData
import SecaasCharms.IdsSimulation
import SecaasCharms.SuricataService
import SecaasCharms.VpnStart
import SecaasCharms.WazuhUsers
import SecaasCharms.WazuhUpgrades
