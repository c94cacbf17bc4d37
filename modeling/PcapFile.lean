import PcapFile.Basic
import PcapFile.Utf8
import PcapFile.Pcap.Header
import PcapFile.PcapNg.Options
import PcapFile.PcapNg.Blocks.SectionHeader
import PcapFile.PcapNg.Blocks.Interface
import PcapFile.PcapNg.Blocks.Packet
import PcapFile.PcapNg.Blocks.NameResolution
import PcapFile.PcapNg.Blocks.BlockCommon
import PcapFile.PcapNg.Parser
import PcapFile.PcapNg.Decode
import PcapFile.PcapNg.Writer
import PcapFile.PcapNg.Replay
import PcapFile.PcapNg.Framing
import PcapFile.PcapNg.OptionLists
import PcapFile.PcapNg.Rewrite
import PcapFile.PcapNg.WriterFailures
import PcapFile.PcapNg.Counts
import PcapFile.PcapNg.SectionOrder
import PcapFile.PcapNg.FieldWidths
import PcapFile.ReadBuffer
import PcapFile.PcapNg.Reader
import PcapFile.PcapNg.RoundTrip
import PcapFile.Pcap.Packet
import PcapFile.Pcap.Stream
