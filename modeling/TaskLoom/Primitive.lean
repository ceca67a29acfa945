/-!
# Primitives

The modules that generated designs instantiate but do not contain.  Each is kept as the lines of its
source file; they stand ready for a design that is written without a directory of primitives.
-/

namespace TaskLoom.Primitive

/-- The lines of the queue between two tasks. -/
def fifoLines : List String :=
  ["// Synchronous FIFO with first-word fall-through read side. Port names follow",
   "// the if_* convention used by the generated composites.",
   "module fifo #(",
   "  parameter DATA_WIDTH = 32,",
   "  parameter ADDR_WIDTH = 5,",
   "  parameter DEPTH      = 32",
   ") (",
   "  input                   clk,",
   "  input                   reset,",
   "",
   "  // read side",
   "  output                  if_empty_n,",
   "  input                   if_read_ce,",
   "  input                   if_read,",
   "  output [DATA_WIDTH-1:0] if_dout,",
   "",
   "  // write side",
   "  output                  if_full_n,",
   "  input                   if_write_ce,",
   "  input                   if_write,",
   "  input  [DATA_WIDTH-1:0] if_din",
   ");",
   "",
   "  reg [DATA_WIDTH-1:0] mem [0:DEPTH-1];",
   "  reg [ADDR_WIDTH-1:0] rd_ptr;",
   "  reg [ADDR_WIDTH-1:0] wr_ptr;",
   "  reg [ADDR_WIDTH:0]   count;",
   "",
   "  wire do_read  = if_read_ce && if_read && count != 0;",
   "  wire do_write = if_write_ce && if_write && count != DEPTH;",
   "",
   "  assign if_empty_n = count != 0;",
   "  assign if_full_n  = count != DEPTH;",
   "  assign if_dout    = mem[rd_ptr];",
   "",
   "  always @(posedge clk) begin",
   "    if (reset) begin",
   "      rd_ptr <= 0;",
   "      wr_ptr <= 0;",
   "      count  <= 0;",
   "    end else begin",
   "      if (do_write) begin",
   "        mem[wr_ptr] <= if_din;",
   "        wr_ptr <= (wr_ptr == DEPTH - 1) ? 0 : wr_ptr + 1;",
   "      end",
   "      if (do_read) begin",
   "        rd_ptr <= (rd_ptr == DEPTH - 1) ? 0 : rd_ptr + 1;",
   "      end",
   "      case (\x7bdo_write, do_read\x7d)",
   "        2'b10: count <= count + 1;",
   "        2'b01: count <= count - 1;",
   "        default: count <= count;",
   "      endcase",
   "    end",
   "  end",
   "",
   "endmodule"]

/-- The lines of the adapter between request channels and a memory bus. -/
def channelLines : List String :=
  ["// Split-channel adapter from four FIFO-style request/response channels to an",
   "// AXI4 master. Every request is a single-beat burst; addresses are element",
   "// indices relative to offset.",
   "module async_mmap #(",
   "  parameter DataWidth         = 32,",
   "  parameter DataWidthBytesLog = 2,",
   "  parameter AddrWidth         = 64",
   ") (",
   "  input                     clk,",
   "  input                     rst,",
   "  input  [AddrWidth-1:0]    offset,",
   "",
   "  output [AddrWidth-1:0]    m_axi_ARADDR,",
   "  output [1:0]              m_axi_ARBURST,",
   "  output [3:0]              m_axi_ARCACHE,",
   "  output [0:0]              m_axi_ARID,",
   "  output [7:0]              m_axi_ARLEN,",
   "  output                    m_axi_ARLOCK,",
   "  output [2:0]              m_axi_ARPROT,",
   "  output [3:0]              m_axi_ARQOS,",
   "  input                     m_axi_ARREADY,",
   "  output [2:0]              m_axi_ARSIZE,",
   "  output                    m_axi_ARVALID,",
   "",
   "  output [AddrWidth-1:0]    m_axi_AWADDR,",
   "  output [1:0]              m_axi_AWBURST,",
   "  output [3:0]              m_axi_AWCACHE,",
   "  output [0:0]              m_axi_AWID,",
   "  output [7:0]              m_axi_AWLEN,",
   "  output                    m_axi_AWLOCK,",
   "  output [2:0]              m_axi_AWPROT,",
   "  output [3:0]              m_axi_AWQOS,",
   "  input                     m_axi_AWREADY,",
   "  output [2:0]              m_axi_AWSIZE,",
   "  output                    m_axi_AWVALID,",
   "",
   "  input  [0:0]              m_axi_BID,",
   "  output                    m_axi_BREADY,",
   "  input  [1:0]              m_axi_BRESP,",
   "  input                     m_axi_BVALID,",
   "",
   "  input  [DataWidth-1:0]    m_axi_RDATA,",
   "  input  [0:0]              m_axi_RID,",
   "  input                     m_axi_RLAST,",
   "  output                    m_axi_RREADY,",
   "  input  [1:0]              m_axi_RRESP,",
   "  input                     m_axi_RVALID,",
   "",
   "  output [DataWidth-1:0]    m_axi_WDATA,",
   "  output                    m_axi_WLAST,",
   "  input                     m_axi_WREADY,",
   "  output [DataWidth/8-1:0]  m_axi_WSTRB,",
   "  output                    m_axi_WVALID,",
   "",
   "  input  [AddrWidth-1:0]    read_addr_din,",
   "  output                    read_addr_full_n,",
   "  input                     read_addr_write,",
   "",
   "  output [DataWidth-1:0]    read_data_dout,",
   "  output                    read_data_empty_n,",
   "  input                     read_data_read,",
   "",
   "  input  [AddrWidth-1:0]    write_addr_din,",
   "  output                    write_addr_full_n,",
   "  input                     write_addr_write,",
   "",
   "  input  [DataWidth-1:0]    write_data_din,",
   "  output                    write_data_full_n,",
   "  input                     write_data_write",
   ");",
   "",
   "  reg                 ar_valid;",
   "  reg [AddrWidth-1:0] ar_addr;",
   "  reg                 aw_valid;",
   "  reg [AddrWidth-1:0] aw_addr;",
   "  reg                 w_valid;",
   "  reg [DataWidth-1:0] w_data;",
   "",
   "  assign read_addr_full_n  = !ar_valid;",
   "  assign write_addr_full_n = !aw_valid;",
   "  assign write_data_full_n = !w_valid;",
   "",
   "  assign m_axi_ARADDR  = offset + (ar_addr << DataWidthBytesLog);",
   "  assign m_axi_ARBURST = 2'b01;",
   "  assign m_axi_ARCACHE = 4'b0011;",
   "  assign m_axi_ARID    = 1'b0;",
   "  assign m_axi_ARLEN   = 8'd0;",
   "  assign m_axi_ARLOCK  = 1'b0;",
   "  assign m_axi_ARPROT  = 3'b000;",
   "  assign m_axi_ARQOS   = 4'b0000;",
   "  assign m_axi_ARSIZE  = DataWidthBytesLog;",
   "  assign m_axi_ARVALID = ar_valid;",
   "",
   "  assign m_axi_AWADDR  = offset + (aw_addr << DataWidthBytesLog);",
   "  assign m_axi_AWBURST = 2'b01;",
   "  assign m_axi_AWCACHE = 4'b0011;",
   "  assign m_axi_AWID    = 1'b0;",
   "  assign m_axi_AWLEN   = 8'd0;",
   "  assign m_axi_AWLOCK  = 1'b0;",
   "  assign m_axi_AWPROT  = 3'b000;",
   "  assign m_axi_AWQOS   = 4'b0000;",
   "  assign m_axi_AWSIZE  = DataWidthBytesLog;",
   "  assign m_axi_AWVALID = aw_valid;",
   "",
   "  assign m_axi_BREADY = 1'b1;",
   "",
   "  assign read_data_dout    = m_axi_RDATA;",
   "  assign read_data_empty_n = m_axi_RVALID;",
   "  assign m_axi_RREADY      = read_data_read;",
   "",
   "  assign m_axi_WDATA  = w_data;",
   "  assign m_axi_WLAST  = 1'b1;",
   "  assign m_axi_WSTRB  = \x7b(DataWidth/8)\x7b1'b1\x7d\x7d;",
   "  assign m_axi_WVALID = w_valid;",
   "",
   "  always @(posedge clk) begin",
   "    if (rst) begin",
   "      ar_valid <= 1'b0;",
   "      aw_valid <= 1'b0;",
   "      w_valid  <= 1'b0;",
   "    end else begin",
   "      if (read_addr_write && !ar_valid) begin",
   "        ar_valid <= 1'b1;",
   "        ar_addr  <= read_addr_din;",
   "      end else if (ar_valid && m_axi_ARREADY) begin",
   "        ar_valid <= 1'b0;",
   "      end",
   "      if (write_addr_write && !aw_valid) begin",
   "        aw_valid <= 1'b1;",
   "        aw_addr  <= write_addr_din;",
   "      end else if (aw_valid && m_axi_AWREADY) begin",
   "        aw_valid <= 1'b0;",
   "      end",
   "      if (write_data_write && !w_valid) begin",
   "        w_valid <= 1'b1;",
   "        w_data  <= write_data_din;",
   "      end else if (w_valid && m_axi_WREADY) begin",
   "        w_valid <= 1'b0;",
   "      end",
   "    end",
   "  end",
   "",
   "endmodule"]

/-- The text of a file; every line of it ends with a line break. -/
def fileText (lines : List String) : String := String.join (lines.map (· ++ "\n"))

/-- The source files of all primitives, by name. -/
def files : List (String × String) :=
  [("async_mmap.v", fileText channelLines), ("fifo.v", fileText fifoLines)]

end TaskLoom.Primitive
