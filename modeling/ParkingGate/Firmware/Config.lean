-- SUMMARY: The constants of `config/config.h` that the modelled firmware reads.
import Mathlib.Logic.Basic

namespace Firmware.Config

/-- Reconnection attempts before PPP is rebuilt. -/
def mqttFailsBeforePppRebuild : UInt8 := 3
/-- PPP failures before the modem is hard reset. -/
def pppFailsBeforeModemReset : UInt8 := 2
def pppTimeoutMs : UInt32 := 60000
/-- The longest stay in STATE_MQTT_CONNECTING before PPP is rebuilt. -/
def mqttConnectingMaxMs : UInt32 := 300000
def backoffBaseMs : UInt32 := 1000
def backoffMaxMs : UInt32 := 60000
def statusIntervalMs : UInt32 := 5000
def oobPollIntervalMs : UInt32 := 120000
def atInitTimeoutMs : UInt32 := 30000
def modemInitMaxRetries : Nat := 5

def gateCooldownMs : UInt32 := 8000
abbrev dedupCacheSize : Nat := 20

abbrev diagnosticLogMaxEntries : Nat := 32

end Firmware.Config
